import Comsg.Lib.Members
import Comsg.Proofs.Nsd.Rights

/-!
# `Comsg.Proofs.Nsd.Tree`: the namespaces form a tree

A new namespace becomes a child of the one its request designates, and it keeps a sealed
capability to it. No request moves a namespace or removes one: `codrop` looks for a namespace
among its own children, where it never is. So the links to the parents lead to older entries,
and the lists of children have every namespace but the root once (`TreeOk`).

The objects are either in the list of one namespace or deleted, each once (`ObjectsOk`). The
deleted ones are read off the log of the run. `namespaces_form_tree` assembles what holds after
a run.
-/

set_option autoImplicit false

namespace Comsg.Proofs.Nsd

open Comsg.Lib
open Comsg.Nsd

/-- The children of all namespaces together. -/
def children (s : Tables) : List Nat := s.namespaces.flatMap Namespace.namespaces

/-- The objects of all namespaces together. -/
def members (s : Tables) : List Nat := s.namespaces.flatMap Namespace.objects

/-- The parent capability of namespace `i` designates namespace `p`. -/
def ParentLink (s : Tables) (i p : Nat) : Prop :=
  ∃ space, s.namespaces[i]? = some space ∧ space.parent.target = some (.ns p)

/-- The object that a `codelete` has deleted. -/
def deletedObject : Request × Reply → Option Nat
  | (.codelete args, .ok _) =>
    match args.nsobj.target with
    | some (.nsobj i) => some i
    | _               => none
  | _ => none

/-- Entry `i` of the table of namespaces is sound. -/
structure SpaceOk (s : Tables) (i : Nat) (space : Namespace) : Prop where
  type : validNsType space.type = true
  root : space.type = .root ↔ i = 0
  orphan : i = 0 → space.parent = .null
  parent : i ≠ 0 → ∃ p above, s.openNs space.parent = some (p, above) ∧ p < i ∧
    i ∈ above.namespaces
  level : space.type = .application ∨ space.type = .library → space.parent.target = some (.ns 0)

/-- The invariant of the namespaces: the root and the children are all of them. -/
structure TreeOk (s : Tables) : Prop where
  space : ∀ (i : Nat) (space : Namespace), s.namespaces[i]? = some space → SpaceOk s i space
  spaces : (0 :: children s).Perm (List.range s.namespaces.length)

/-- The invariant of the objects: the members and the deleted ones are all of them. -/
def ObjectsOk (s : Tables) (deleted : List Nat) : Prop :=
  (members s ++ deleted).Perm (List.range s.nsobjects.length)

/-- The namespaces are a tree, and the objects that are not deleted hang on it. -/
structure IsTree (s : Tables) (deleted : List Nat) : Prop where
  once : ∀ i, i ≠ 0 → i < s.namespaces.length → (children s).count i = 1
  listed : ∀ i, i ≠ 0 → i < s.namespaces.length → ∃ p space, ParentLink s i p ∧
    s.namespaces[p]? = some space ∧ i ∈ space.namespaces
  up : ∀ i, i < s.namespaces.length → Relation.ReflTransGen (ParentLink s) i 0
  level : ∀ (i : Nat) (space : Namespace), s.namespaces[i]? = some space →
    space.type = .application ∨ space.type = .library → ParentLink s i 0
  root : ∃! i : Nat, ∃ space : Namespace, s.namespaces[i]? = some space ∧ space.type = .root
  object : ∀ i, i < s.nsobjects.length → i ∉ deleted → (members s).count i = 1
  gone : ∀ i, i ∈ deleted → i < s.nsobjects.length ∧ i ∉ members s

section Parents
variable {s s' : Tables} {c parent : NsCap} {p i : Nat} {space : Namespace}

/-- What nsd seals with is what it recognises. -/
theorem nsOtypeToType_getNsSealcap {type : NsType} {ot : Otype} (h : getNsSealcap type = some ot) :
    nsOtypeToType ot ≠ .invalidNs := by
  cases type <;> cases h <;> decide

/-- The capability to its parent that a new namespace keeps opens the parent. -/
theorem openNs_parent (hopen : s.openNs c = some (p, space)) (htype : validNsType space.type = true)
    (hseal : s.sealNs (c.unsealed.andperm nsPermsObjMask) = some parent) :
    s.openNs parent = some (p, space) := by
  obtain ⟨htag, -, hload, hcap, htarget, hspace⟩ := openNs_eq_some.mp hopen
  have hload' : Meets (c.perms &&& nsPermsObjMask) permLoad :=
    (meets_and_iff (by decide)).mpr hload
  have hcap' : Meets (c.perms &&& nsPermsObjMask) permLoadCap :=
    (meets_and_iff (by decide)).mpr hcap
  have hns : s.ns (c.unsealed.andperm nsPermsObjMask) = some (p, space) :=
    ns_eq_some.mpr ⟨Cap.load_eq_some.mpr ⟨htag, rfl, hload', htarget⟩, hspace⟩
  simp only [Tables.sealNs, hns, Option.bind_eq_bind, Option.bind_some] at hseal
  split at hseal
  · rename_i hinvalid
    simp [hinvalid, validNsType] at htype
  · obtain ⟨ot, hot, rfl⟩ := Option.map_eq_some_iff.mp hseal
    have hknown : ∀ ot' ∈ some ot, nsOtypeToType ot' ≠ .invalidNs := by
      intro ot' hmem
      rw [← Option.some.inj hmem]
      exact nsOtypeToType_getNsSealcap hot
    exact openNs_eq_some.mpr ⟨htag, hknown, hload', hcap', htarget, hspace⟩

/-- What `validate_nscreate_params` has checked of the type. -/
theorem validateNscreateParams_true {type : NsType} {name : List UInt8}
    (hopen : s.openNs c = some (p, space)) (h : s.validateNscreateParams c type name = some true) :
    validNsType type = true ∧ type ≠ .root ∧ (type = .application ∨ type = .library → p = 0) := by
  simp only [Tables.validateNscreateParams] at h
  split at h
  · cases h
  · split at h
    · cases h
    · rename_i htype
      rw [Bool.not_eq_false] at htype
      obtain ⟨valid, -, h⟩ := Option.bind_eq_some_iff.mp h
      split at h
      · cases h
      · split at h
        · cases h
        · cases type <;> simp [hopen] at h ⊢ <;> simp_all [validNsType]

/-- The namespaces of `s` are still there, and have kept their types, parents and children. -/
def KeepsSpaces (s s' : Tables) : Prop :=
  ∀ (i : Nat) (space : Namespace), s.namespaces[i]? = some space →
    ∃ space', s'.namespaces[i]? = some space' ∧ space.namespaces ⊆ space'.namespaces

theorem SpaceOk.keeps {space' : Namespace} (hk : KeepsSpaces s s') (h : SpaceOk s i space)
    (htype : space'.type = space.type) (hparent : space'.parent = space.parent) :
    SpaceOk s' i space' where
  type := by
    rw [htype]
    exact h.type
  root := by
    rw [htype]
    exact h.root
  orphan := by
    rw [hparent]
    exact h.orphan
  parent hi := by
    obtain ⟨p, above, hopen, hp, hmem⟩ := h.parent hi
    obtain ⟨htag, hseal, hload, hcap, htarget, hspace⟩ := openNs_eq_some.mp hopen
    obtain ⟨above', habove, hsub⟩ := hk p above hspace
    rw [hparent]
    exact ⟨p, above', openNs_eq_some.mpr ⟨htag, hseal, hload, hcap, htarget, habove⟩, hp, hsub hmem⟩
  level := by
    rw [htype, hparent]
    exact h.level

end Parents

/-! ### The invariants are kept -/

section Keeps
variable {s s' : Tables} {p i : Nat} {space : Namespace}

theorem treeOk_addObject {o : Nsobject} (h : TreeOk s) : TreeOk (addObject s p o) where
  space i _ hi := by
    have hk : KeepsSpaces s (addObject s p o) := by
      intro q old hold
      refine ⟨_, addObject_namespaces.mpr ⟨old, hold, rfl⟩, ?_⟩
      split <;> exact List.Subset.refl _
    obtain ⟨old, hold, rfl⟩ := addObject_namespaces.mp hi
    exact (h.space i old hold).keeps hk (by split <;> rfl) (by split <;> rfl)
  spaces := by
    have hsame : children (addObject s p o) = children s := flatMap_modify_of_eq (by intro n; rfl)
    have hlen : (addObject s p o).namespaces.length = s.namespaces.length := by simp [addObject]
    rw [hsame, hlen]
    exact h.spaces

theorem treeOk_removeObject (h : TreeOk s) : TreeOk (removeObject s p i) where
  space j _ hj := by
    have hk : KeepsSpaces s (removeObject s p i) := by
      intro q old hold
      refine ⟨_, removeObject_namespaces.mpr ⟨old, hold, rfl⟩, ?_⟩
      split <;> exact List.Subset.refl _
    obtain ⟨old, hold, rfl⟩ := removeObject_namespaces.mp hj
    exact (h.space j old hold).keeps hk (by split <;> rfl) (by split <;> rfl)
  spaces := by
    have hsame : children (removeObject s p i) = children s :=
      flatMap_modify_of_eq (by intro n; rfl)
    have hlen : (removeObject s p i).namespaces.length = s.namespaces.length := by
      simp [removeObject]
    rw [hsame, hlen]
    exact h.spaces

theorem treeOk_fillObject {type : NsobjectType} {obj : NsCap} (h : TreeOk s) :
    TreeOk (fillObject s i type obj) where
  space j old hj := by
    have hk : KeepsSpaces s (fillObject s i type obj) := by
      intro q space hspace
      exact ⟨space, hspace, List.Subset.refl _⟩
    exact (h.space j old hj).keeps hk rfl rfl
  spaces := h.spaces

/-- A new namespace that opens its parent joins the tree. -/
theorem treeOk_addNamespace {n : Namespace} (h : TreeOk s)
    (hopen : s.openNs n.parent = some (p, space)) (htype : validNsType n.type = true)
    (hnot : n.type ≠ .root) (hlevel : n.type = .application ∨ n.type = .library → p = 0)
    (hn : n.namespaces = []) : TreeOk (addNamespace s p n) where
  space i space' hi := by
    have hk : KeepsSpaces s (addNamespace s p n) := by
      intro q old hold
      refine ⟨_, addNamespace_namespaces.mpr (.inr ⟨old, hold, rfl⟩), ?_⟩
      split
      · exact List.subset_cons_self _ _
      · exact List.Subset.refl _
    rcases addNamespace_namespaces.mp hi with ⟨rfl, hnew⟩ | ⟨old, hold, rfl⟩
    · subst space'
      obtain ⟨htag, hseal, hload, hcap, htarget, hp⟩ := openNs_eq_some.mp hopen
      have hlt : p < s.namespaces.length := (List.getElem?_eq_some_iff.mp hp).1
      -- The parent lists the new namespace.
      have habove := (addNamespace_namespaces (p := p) (n := n)).mpr (.inr ⟨space, hp, rfl⟩)
      rw [if_pos rfl] at habove
      exact {
        type := htype
        root := ⟨fun hroot => absurd hroot hnot, fun hzero => by omega⟩
        orphan := fun hzero => by omega
        parent := fun _ => ⟨p, _, openNs_eq_some.mpr ⟨htag, hseal, hload, hcap, htarget, habove⟩,
          hlt, List.mem_cons_self⟩
        level := fun hkind => by rw [htarget, hlevel hkind] }
    · exact (h.space i old hold).keeps hk (by split <;> rfl) (by split <;> rfl)
  spaces := by
    obtain ⟨-, hp⟩ := openNs_target hopen
    have hnew : (children (addNamespace s p n)).Perm (s.namespaces.length :: children s) := by
      simp only [children, addNamespace, List.flatMap_append, List.flatMap_singleton, hn,
        List.append_nil]
      exact perm_flatMap_modify_cons hp rfl
    have hlen : (addNamespace s p n).namespaces.length = s.namespaces.length + 1 := by
      simp [addNamespace]
    have hswap : (0 :: children (addNamespace s p n)).Perm
        (s.namespaces.length :: 0 :: children s) := (hnew.cons 0).trans (.swap _ _ _)
    rw [hlen, List.range_succ]
    exact hswap.trans ((h.spaces.cons _).trans (List.perm_append_singleton _ _).symm)

/-- A request keeps the tree. -/
theorem treeOk_effect {r : Request} {reply : Reply} (hok : TablesOk s) (h : TreeOk s)
    (he : Effect s r s' reply) : TreeOk s' := by
  cases he with
  | inserted args p space cap => exact treeOk_addObject h
  | deleted args p i space o => exact treeOk_removeObject h
  | updated args i o cap => exact treeOk_fillObject h
  | created args p space parent cap hwr hvalid hopen hspaces hparent =>
    obtain ⟨-, hp⟩ := openNs_target hopen
    obtain ⟨htype, hnot, hlevel⟩ := validateNscreateParams_true hopen hvalid
    exact treeOk_addNamespace h (openNs_parent hopen (h.space p space hp).type hparent) htype hnot
      hlevel rfl
  | dropped args i space hopen hmem =>
    exact absurd (hok.child i space i (openNs_target hopen).2 hmem).1 (Nat.lt_irrefl i)
  | _ => exact h

theorem objectsOk_addObject {o : Nsobject} {deleted : List Nat} (h : ObjectsOk s deleted)
    (hp : s.namespaces[p]? = some space) : ObjectsOk (addObject s p o) deleted := by
  have hnew : (members (addObject s p o)).Perm (s.nsobjects.length :: members s) :=
    perm_flatMap_modify_cons hp rfl
  have hlen : (addObject s p o).nsobjects.length = s.nsobjects.length + 1 := by simp [addObject]
  unfold ObjectsOk
  rw [hlen, List.range_succ]
  have hall : (members (addObject s p o) ++ deleted).Perm
      (s.nsobjects.length :: (members s ++ deleted)) := hnew.append_right deleted
  exact hall.trans ((List.Perm.cons _ h).trans (List.perm_append_singleton _ _).symm)

theorem objectsOk_removeObject {deleted : List Nat} (h : ObjectsOk s deleted)
    (hp : s.namespaces[p]? = some space) (hi : i ∈ space.objects) :
    ObjectsOk (removeObject s p i) (deleted ++ [i]) := by
  have hold : (members s).Perm (i :: members (removeObject s p i)) :=
    perm_flatMap_modify_erase hp rfl hi
  have hlen : (removeObject s p i).nsobjects.length = s.nsobjects.length := by simp [removeObject]
  unfold ObjectsOk
  rw [hlen, ← List.append_assoc]
  exact (List.perm_append_singleton _ _).trans ((hold.append_right deleted).symm.trans h)

/-- A request keeps the account of the objects. -/
theorem objectsOk_effect {r : Request} {reply : Reply} {deleted : List Nat} (hok : TablesOk s)
    (h : ObjectsOk s deleted) (he : Effect s r s' reply) :
    ObjectsOk s' (deleted ++ (deletedObject (r, reply)).toList) := by
  have hsame (hnone : deletedObject (r, reply) = none) (hs : members s' = members s)
      (hlen : s'.nsobjects.length = s.nsobjects.length) :
      ObjectsOk s' (deleted ++ (deletedObject (r, reply)).toList) := by
    unfold ObjectsOk
    rw [hnone, hs, hlen, Option.toList_none, List.append_nil]
    exact h
  cases he with
  | refused r error => exact hsame (by cases r <;> rfl) rfl rfl
  | inserted args p space cap hwr hopen =>
    rw [show deletedObject (.coinsert args, .ok cap) = none from rfl, Option.toList_none,
      List.append_nil]
    exact objectsOk_addObject h (openNs_target hopen).2
  | deleted args p i space o hopen ho hcap hmem =>
    have hgone : deletedObject (.codelete args, .ok .null) = some i := by
      simp [deletedObject, hcap]
    rw [hgone]
    exact objectsOk_removeObject h (openNs_target hopen).2 hmem
  | updated args i o cap => exact hsame rfl rfl (by simp [fillObject])
  | created args p space parent cap =>
    refine hsame rfl ?_ rfl
    simp only [members, addNamespace, List.flatMap_append, List.flatMap_singleton, List.append_nil]
    exact flatMap_modify_of_eq (by intro n; rfl)
  | dropped args i space hopen hmem =>
    exact absurd (hok.child i space i (openNs_target hopen).2 hmem).1 (Nat.lt_irrefl i)
  | _ => exact hsame rfl rfl rfl

end Keeps

/-! ### Runs -/

section Runs
variable {maxNamespaces maxNsobjects : Nat} {s s' : Tables}
  {handles : List UInt8 → Option { handle : NsCap // handle.tag = true }}

theorem treeOk_init : TreeOk (initTables maxNamespaces maxNsobjects handles) where
  space i space hi := by
    have hlt := (List.getElem?_eq_some_iff.mp hi).1
    obtain rfl : i = 0 := by simpa [initTables] using hlt
    simp only [initTables, List.getElem?_cons_zero, Option.some.injEq] at hi
    subst hi
    exact {
      type := rfl
      root := by simp [rootNamespace]
      orphan := fun _ => rfl
      parent := fun hne => absurd rfl hne
      level := by simp [rootNamespace] }
  spaces := by simp [children, initTables, rootNamespace]

theorem objectsOk_init : ObjectsOk (initTables maxNamespaces maxNsobjects handles) [] := by
  simp only [ObjectsOk, members, initTables, List.flatMap_singleton, List.append_nil,
    List.length_map]
  exact List.reverse_perm _

theorem treeOk_reach {ok : Tables → Request → Prop}
    (h : Reach Tables.step ok (initTables maxNamespaces maxNsobjects handles) s) : TreeOk s := by
  induction h with
  | init => exact treeOk_init
  | next r hreach _ hs ih =>
    obtain ⟨⟨s', reply⟩, hhandle, rfl⟩ := Option.map_eq_some_iff.mp hs
    exact treeOk_effect (tablesOk_reach hreach) ih (handle_effect hhandle)

/-- A run keeps the invariants, with the objects that it has deleted. -/
theorem tree_run {reqs : List Request} {log : List (Request × Reply)} {deleted : List Nat}
    (hrun : runLog Tables.handle s reqs = some (s', log)) (hok : TablesOk s) (ht : TreeOk s)
    (ho : ObjectsOk s deleted) :
    TablesOk s' ∧ TreeOk s' ∧ ObjectsOk s' (deleted ++ log.filterMap deletedObject) := by
  induction reqs generalizing s log deleted with
  | nil =>
    cases hrun
    exact ⟨hok, ht, by simpa using ho⟩
  | cons r reqs ih =>
    obtain ⟨s₁, reply, log', hs, hrest, rfl⟩ := runLog_cons hrun
    have he := handle_effect hs
    obtain ⟨hok', ht', ho'⟩ := ih hrest (tablesOk_effect hok he) (treeOk_effect hok ht he)
      (objectsOk_effect hok ho he)
    refine ⟨hok', ht', ?_⟩
    have hlog : ((r, reply) :: log').filterMap deletedObject =
        (deletedObject (r, reply)).toList ++ log'.filterMap deletedObject := by
      cases hd : deletedObject (r, reply) <;> simp [hd]
    rw [hlog, ← List.append_assoc]
    exact ho'

/-- An element of a list that is a permutation of a range occurs once. -/
theorem count_eq_one_of_perm_range {xs : List Nat} {n i : Nat} (h : xs.Perm (List.range n))
    (hi : i < n) : xs.count i = 1 := by
  rw [h.count_eq]
  exact List.count_eq_one_of_mem List.nodup_range (List.mem_range.mpr hi)

theorem TreeOk.link (h : TreeOk s) {i : Nat} (hi : i ≠ 0) (hlt : i < s.namespaces.length) :
    ∃ p space, ParentLink s i p ∧ s.namespaces[p]? = some space ∧ p < i ∧
      i ∈ space.namespaces := by
  have hi' : s.namespaces[i]? = some s.namespaces[i] := List.getElem?_eq_getElem hlt
  obtain ⟨p, above, hopen, hp, hmem⟩ := (h.space i _ hi').parent hi
  obtain ⟨htarget, habove⟩ := openNs_target hopen
  exact ⟨p, above, ⟨_, hi', htarget⟩, habove, hp, hmem⟩

/-- The invariants make a tree. -/
theorem isTree_of_ok {deleted : List Nat} (ht : TreeOk s) (ho : ObjectsOk s deleted) :
    IsTree s deleted where
  once i hi hlt := by
    have hcount := count_eq_one_of_perm_range ht.spaces hlt
    rwa [List.count_cons_of_ne (Ne.symm hi)] at hcount
  listed i hi hlt := by
    obtain ⟨p, space, hlink, hspace, -, hmem⟩ := ht.link hi hlt
    exact ⟨p, space, hlink, hspace, hmem⟩
  up i hlt := by
    refine reflTransGen_zero (fun j hj hjlt => ?_) hlt
    obtain ⟨p, -, hlink, -, hp, -⟩ := ht.link (Nat.pos_iff_ne_zero.mp hj) hjlt
    exact ⟨p, hlink, hp⟩
  level i space hi hkind := ⟨space, hi, (ht.space i space hi).level hkind⟩
  root := by
    have hroot : 0 < s.namespaces.length :=
      List.mem_range.mp (ht.spaces.mem_iff.mp List.mem_cons_self)
    have hzero : s.namespaces[0]? = some s.namespaces[0] := List.getElem?_eq_getElem hroot
    refine ⟨0, ⟨_, hzero, (ht.space 0 _ hzero).root.mpr rfl⟩, ?_⟩
    rintro i ⟨space, hi, htype⟩
    exact (ht.space i space hi).root.mp htype
  object i hlt hnot := by
    have hcount := count_eq_one_of_perm_range ho hlt
    rwa [List.count_append, List.count_eq_zero_of_not_mem hnot] at hcount
  gone i hi := by
    have hmem : i ∈ members s ++ deleted := List.mem_append_right _ hi
    refine ⟨List.mem_range.mp (ho.mem_iff.mp hmem), fun hlisted => ?_⟩
    have hnodup := ho.nodup_iff.mpr List.nodup_range
    exact (List.nodup_append.mp hnodup).2.2 i hlisted i hi rfl

/-- After every run of requests the namespaces are a tree. -/
theorem namespaces_form_tree {reqs : List Request} {log : List (Request × Reply)}
    (hrun : runLog Tables.handle (initTables maxNamespaces maxNsobjects handles) reqs =
      some (s, log)) :
    IsTree s (log.filterMap deletedObject) := by
  obtain ⟨-, ht, ho⟩ := tree_run hrun tablesOk_init treeOk_init objectsOk_init
  exact isTree_of_ok ht ho

end Runs

/-- The owner's deletion of the coport `a`. -/
def ownerDeletesA : ObjectArgs := { coportA with nsobj := handleA }

/-- A child of the root, and a coport that comes and goes. -/
theorem namespaces_form_tree_two :
    ∃ s log, runLog Tables.handle freshTables
        [.cocreate spaceB, .coinsert coportA, .codelete ownerDeletesA] = some (s, log) ∧
      s.namespaces.length = 2 ∧ IsTree s [6] := by
  obtain ⟨⟨s, log⟩, hrun⟩ : ∃ q, runLog Tables.handle freshTables
      [.cocreate spaceB, .coinsert coportA, .codelete ownerDeletesA] = some q :=
    Option.isSome_iff_exists.mp (by decide)
  have hlen : s.namespaces.length = 2 :=
    eq_of_map_runLog (fun s _ => s.namespaces.length) hrun (by decide)
  have hdeleted : log.filterMap deletedObject = [6] :=
    eq_of_map_runLog (fun _ log => log.filterMap deletedObject) hrun (by decide)
  exact ⟨s, log, hrun, hlen, hdeleted ▸ namespaces_form_tree hrun⟩

end Comsg.Proofs.Nsd
