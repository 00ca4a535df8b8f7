import Comsg.Proofs.Nsd.Directory

/-!
# `Comsg.Proofs.Nsd.Names`: the names in one namespace

The objects and the child namespaces of a namespace share one space of names. `coinsert` looks
for the name of a new object in both lists. `cocreate` looks for the name of a new namespace only
among the children, so it can give a child the name of an object (`object_and_child_share_name`).

Without such a `cocreate`, the names in a namespace are distinct in every state that nsd reaches
(`names_unique_of_freshName`).
-/

set_option autoImplicit false

namespace Comsg.Proofs.Nsd

open Comsg.Lib
open Comsg.Nsd

/-- The name of object `i`, up to the bytes that `strncmp` compares. -/
def objectName (s : Tables) (i : Nat) : Option (List UInt8) :=
  s.nsobjects[i]?.map fun o => nsName o.name

/-- The name of namespace `i`. -/
def spaceName (s : Tables) (i : Nat) : Option (List UInt8) :=
  s.namespaces[i]?.map fun n => nsName n.name

/-- The names of the members of namespace `p`, objects and child namespaces. -/
def memberNames (s : Tables) (p : Nat) : List (Option (List UInt8)) :=
  match s.namespaces[p]? with
  | none       => []
  | some space => space.objects.map (objectName s) ++ space.namespaces.map (spaceName s)

/-- No two members of one namespace have the same name. -/
def NamesUnique (s : Tables) : Prop := ∀ p, (memberNames s p).Nodup

/-- The request is not a `cocreate` with the name of an object of the namespace and parameters
that `new_namespace` accepts. -/
def FreshName (s : Tables) : Request → Prop
  | .cocreate args =>
    s.validateNscreateParams args.nsCap args.nsType args.nsName = some true →
      ∀ p i o, args.nsCap.target = some (.ns p) → Lists s p i o → nsName o.name ≠ nsName args.nsName
  | _ => True

section Members
variable {s : Tables} {p q i j : Nat} {space : Namespace} {o : Nsobject} {n : List UInt8}

theorem memberNames_of_space (h : s.namespaces[p]? = some space) : memberNames s p =
    space.objects.map (objectName s) ++ space.namespaces.map (spaceName s) := by
  simp [memberNames, h]

/-- A name that is neither that of an object nor that of a child is no member's. -/
theorem not_mem_memberNames (h : s.namespaces[p]? = some space)
    (hobjects : ∀ i ∈ space.objects, s.objectNamed n i = false)
    (hspaces : ∀ i ∈ space.namespaces, s.namespaceNamed n i = false) :
    some (nsName n) ∉ memberNames s p := by
  rw [memberNames_of_space h, List.mem_append, not_or]
  constructor
  · intro hmem
    obtain ⟨i, hi, heq⟩ := List.mem_map.mp hmem
    have hnamed : s.objectNamed n i = true :=
      objectNamed_iff.mpr (Option.map_eq_some_iff.mp heq)
    simp [hobjects i hi] at hnamed
  · intro hmem
    obtain ⟨i, hi, heq⟩ := List.mem_map.mp hmem
    have hnamed : s.namespaceNamed n i = true :=
      namespaceNamed_iff.mpr (Option.map_eq_some_iff.mp heq)
    simp [hspaces i hi] at hnamed

/-! ### What the changes do to the names -/

/-- A change of an entry that keeps `g` of it is not seen in `g` of the entries. -/
theorem map_getElem?_modify {α β : Type} {f : α → α} {g : α → β} (h : ∀ x, g (f x) = g x)
    (xs : List α) : (xs.modify p f)[i]?.map g = xs[i]?.map g := by
  rw [List.getElem?_modify]
  cases xs[i]? with
  | none => rfl
  | some x =>
    show some (g (if p = i then f x else x)) = some (g x)
    split
    · rw [h]
    · rfl

theorem spaceName_addObject : spaceName (addObject s p o) = spaceName s := by
  funext i
  exact map_getElem?_modify (by intro m; rfl) s.namespaces

theorem spaceName_removeObject : spaceName (removeObject s p j) = spaceName s := by
  funext i
  exact map_getElem?_modify (by intro m; rfl) s.namespaces

theorem objectName_fillObject {type : NsobjectType} {obj : NsCap} :
    objectName (fillObject s j type obj) = objectName s := by
  funext i
  exact map_getElem?_modify (by intro m; rfl) s.nsobjects

theorem objectName_addObject (h : i < s.nsobjects.length) :
    objectName (addObject s p o) i = objectName s i := by
  rw [objectName, addObject_nsobjects, if_neg (by omega), objectName]

theorem spaceName_addNamespace {m : Namespace} (h : i < s.namespaces.length) :
    spaceName (addNamespace s p m) i = spaceName s i := by
  simp only [spaceName, addNamespace]
  rw [List.getElem?_append_left (by simpa using h)]
  exact map_getElem?_modify (by intro m; rfl) s.namespaces

theorem memberNames_addObject (h : TablesOk s) (hp : s.namespaces[p]? = some space) :
    memberNames (addObject s p o) q =
      if p = q then some (nsName o.name) :: memberNames s q else memberNames s q := by
  cases hq : s.namespaces[q]? with
  | none =>
    have hpq : p ≠ q := by
      rintro rfl
      simp [hp] at hq
    have hnone : (addObject s p o).namespaces[q]? = none := by
      simp [addObject, List.getElem?_modify, hq]
    simp [memberNames, hq, hnone, hpq]
  | some old =>
    have hold : old.objects.map (objectName (addObject s p o)) = old.objects.map (objectName s) :=
      List.map_congr_left fun i hi => objectName_addObject (h.listed q old i hq hi)
    have hnew : objectName (addObject s p o) s.nsobjects.length = some (nsName o.name) := by
      simp [objectName, addObject_nsobjects]
    rw [memberNames_of_space (addObject_namespaces.mpr ⟨old, hq, rfl⟩), memberNames_of_space hq,
      spaceName_addObject]
    split
    · simp [hold, hnew]
    · rw [hold]

/-- A deletion leaves the names of the others. -/
theorem memberNames_removeObject (h : TablesOk s) (hp : s.namespaces[p]? = some space)
    (hj : j ∈ space.objects) :
    (memberNames (removeObject s p j) q).Sublist (memberNames s q) := by
  cases hq : s.namespaces[q]? with
  | none =>
    have hnone : (removeObject s p j).namespaces[q]? = none := by
      simp [removeObject, List.getElem?_modify, hq]
    simp [memberNames, hnone]
  | some old =>
    have hq' := removeObject_namespaces (p := p) (j := j) |>.mpr ⟨old, hq, rfl⟩
    rw [memberNames_of_space hq', memberNames_of_space hq, spaceName_removeObject]
    have hsame : ∀ i, i ≠ j → objectName (removeObject s p j) i = objectName s i := by
      intro i hij
      rw [objectName, removeObject_nsobjects hij, objectName]
    split
    · refine List.Sublist.append ?_ (List.Sublist.refl _)
      have hrest : (old.objects.erase j).map (objectName (removeObject s p j)) =
          (old.objects.erase j).map (objectName s) := by
        refine List.map_congr_left fun i hi => hsame i ?_
        rintro rfl
        exact (h.nodup q old hq).not_mem_erase hi
      simp only [hrest]
      exact List.erase_sublist.map _
    · rename_i hpq
      -- The object is listed in namespace `p` only.
      have hrest : old.objects.map (objectName (removeObject s p j)) =
          old.objects.map (objectName s) := by
        refine List.map_congr_left fun i hi => hsame i ?_
        rintro rfl
        have hentry := List.getElem?_eq_getElem (h.listed q old i hq hi)
        exact hpq (h.one_space p q i _ ⟨space, hp, hj, hentry⟩ ⟨old, hq, hi, hentry⟩)
      rw [hrest]

theorem memberNames_fillObject {type : NsobjectType} {obj : NsCap} :
    memberNames (fillObject s j type obj) q = memberNames s q := by
  unfold memberNames
  rw [objectName_fillObject]
  rfl

/-- A new namespace has no members, and its parent has one more. -/
theorem memberNames_addNamespace {m : Namespace} (h : TablesOk s)
    (hm : m.objects = [] ∧ m.namespaces = []) (hp : s.namespaces[p]? = some space) :
    (memberNames (addNamespace s p m) q).Perm
      (if p = q then some (nsName m.name) :: memberNames s q else memberNames s q) := by
  have hlt : p < s.namespaces.length := (List.getElem?_eq_some_iff.mp hp).1
  by_cases hq : q = s.namespaces.length
  · have hnone : memberNames s q = [] := by simp [memberNames, hq]
    rw [memberNames_of_space (addNamespace_namespaces.mpr (.inl ⟨hq, rfl⟩)), if_neg (by omega),
      hnone, hm.1, hm.2]
    exact .refl _
  · cases hold : s.namespaces[q]? with
    | none =>
      have hge := List.getElem?_eq_none_iff.mp hold
      have hnone : (addNamespace s p m).namespaces[q]? = none :=
        List.getElem?_eq_none (by simp [addNamespace]; omega)
      simp only [memberNames, hnone, hold]
      rw [if_neg (by omega)]
    | some old =>
      have hsame : old.namespaces.map (spaceName (addNamespace s p m)) =
          old.namespaces.map (spaceName s) :=
        List.map_congr_left fun i hi => spaceName_addNamespace (h.child q old i hold hi).2
      have hnew : spaceName (addNamespace s p m) s.namespaces.length = some (nsName m.name) := by
        rw [spaceName, addNamespace_namespaces.mpr (.inl ⟨rfl, rfl⟩), Option.map_some]
      rw [memberNames_of_space (addNamespace_namespaces.mpr (.inr ⟨old, hold, rfl⟩)),
        memberNames_of_space hold]
      split
      · simp only [List.map_cons, hsame, hnew]
        exact List.perm_middle
      · rw [hsame]
        exact .refl _

end Members

/-! ### Runs -/

section Runs
variable {maxNamespaces maxNsobjects : Nat} {s s' : Tables}
  {handles : List UInt8 → Option { handle : NsCap // handle.tag = true }}

/-- A request keeps the names distinct, unless it is the `cocreate` that `FreshName` excludes. -/
theorem namesUnique_effect {r : Request} {reply : Reply} (h : TablesOk s) (hu : NamesUnique s)
    (hr : FreshName s r) (he : Effect s r s' reply) : NamesUnique s' := by
  intro q
  cases he with
  | inserted args p space cap hwr hopen hname htype hobjects hspaces hcap =>
    obtain ⟨-, hp⟩ := openNs_target hopen
    rw [memberNames_addObject h hp]
    split
    · rename_i hpq
      subst hpq
      refine List.nodup_cons.mpr ⟨?_, hu p⟩
      have hsame : nsName (insertedObject args).name = nsName args.nsobjName := by
        simp [insertedObject]
      rw [hsame]
      exact not_mem_memberNames hp hobjects hspaces
    · exact hu q
  | deleted args p i space o hopen ho hcap hmem =>
    exact (hu q).sublist (memberNames_removeObject h (openNs_target hopen).2 hmem)
  | updated args i o cap hcap ho hreserved htype =>
    rw [memberNames_fillObject]
    exact hu q
  | created args p space parent cap hwr hvalid hopen hspaces =>
    obtain ⟨htarget, hp⟩ := openNs_target hopen
    refine (memberNames_addNamespace h ⟨rfl, rfl⟩ hp).nodup_iff.mpr ?_
    split
    · rename_i hpq
      subst hpq
      refine List.nodup_cons.mpr ⟨?_, hu p⟩
      have hsame : nsName (strncpy nsNameLen args.nsName) = nsName args.nsName := by simp
      rw [hsame]
      refine not_mem_memberNames hp (fun i hi => ?_) hspaces
      -- `cocreate` does not check this itself.
      refine Bool.not_eq_true _ ▸ fun hnamed => ?_
      obtain ⟨o, ho, heq⟩ := objectNamed_iff.mp hnamed
      exact hr hvalid p i o htarget ⟨space, hp, hi, ho⟩ heq
    · exact hu q
  | dropped args i space hopen hmem =>
    exact absurd (h.child i space i (openNs_target hopen).2 hmem).1 (Nat.lt_irrefl i)
  | _ => exact hu q

theorem namesUnique_init : NamesUnique (initTables maxNamespaces maxNsobjects handles) := by
  intro p
  cases p with
  | succ p => simp [memberNames, initTables]
  | zero =>
    have hnames : objectName (initTables maxNamespaces maxNsobjects handles) =
        fun i => serviceNames[i]?.map nsName := by
      funext i
      simp only [objectName, initTables, List.getElem?_map, Option.map_map]
      congr 1
      funext name
      simp only [Function.comp]
      cases handles name <;> exact cstr_strncpy _ _
    rw [memberNames_of_space rfl, hnames]
    show ((List.range serviceNames.length).reverse.map fun i => serviceNames[i]?.map nsName).Nodup
    decide

/-- In a run without a `cocreate` for the name of an object, the names in a namespace are
distinct in every state. -/
theorem names_unique_of_freshName
    (h : Reach Tables.step FreshName (initTables maxNamespaces maxNsobjects handles) s) :
    NamesUnique s := by
  induction h with
  | init => exact namesUnique_init
  | next r hreach hr hs ih =>
    obtain ⟨⟨t, reply⟩, hhandle, rfl⟩ := Option.map_eq_some_iff.mp hs
    exact namesUnique_effect (tablesOk_reach hreach) ih hr (handle_effect hhandle)

end Runs

/-- A coport `a` and a namespace `b` go together. -/
theorem names_unique_of_freshName_two :
    ∃ s, runFrom Tables.step freshTables [.coinsert coportA, .cocreate spaceB] = some s ∧
      (memberNames s 0).length = 8 ∧ NamesUnique s := by
  obtain ⟨s₁, hs₁⟩ : ∃ s₁, runFrom Tables.step freshTables [.coinsert coportA] = some s₁ :=
    Option.isSome_iff_exists.mp (by decide)
  obtain ⟨s, hs⟩ : ∃ s, runFrom Tables.step freshTables [.coinsert coportA, .cocreate spaceB] =
      some s := Option.isSome_iff_exists.mp (by decide)
  refine ⟨s, hs, eq_of_map_runFrom (fun s => (memberNames s 0).length) hs (by decide), ?_⟩
  have hlast : s₁.step (.cocreate spaceB) = some s := by
    rw [show [Request.coinsert coportA, .cocreate spaceB] =
      [.coinsert coportA] ++ [.cocreate spaceB] from rfl, runFrom_append _ _ hs₁] at hs
    simpa [runFrom] using hs
  have hfresh : ∀ o ∈ s₁.nsobjects, nsName o.name ≠ nsName spaceB.nsName := by
    have hdec : decide (∀ o ∈ s₁.nsobjects, nsName o.name ≠ nsName spaceB.nsName) = true :=
      eq_of_map_runFrom (fun s => decide (∀ o ∈ s.nsobjects, nsName o.name ≠ nsName spaceB.nsName))
        hs₁ (by decide)
    exact of_decide_eq_true hdec
  have hfirst : Reach Tables.step FreshName freshTables s₁ :=
    .next (.coinsert coportA) .init trivial (by simpa [runFrom] using hs₁)
  refine names_unique_of_freshName (.next (.cocreate spaceB) hfirst ?_ hlast)
  rintro - p i o - ⟨-, -, -, ho⟩
  exact hfresh o (List.mem_of_getElem? ho)

/-- After a `coinsert` of `a`, a `cocreate` of `a` in the same namespace succeeds. -/
theorem object_and_child_share_name :
    ∃ s, Reach Tables.step anyAct freshTables s ∧ ¬NamesUnique s := by
  obtain ⟨s, hs, hreach⟩ := exists_reach_of_isSome Tables.step
    [.coinsert coportA, .cocreate { spaceB with nsName := asciiBytes ['a'] }] freshTables
    (by decide)
  refine ⟨s, hreach, fun hunique => ?_⟩
  have htwice : ¬(memberNames s 0).Nodup := by
    have hdec : decide (memberNames s 0).Nodup = false :=
      eq_of_map_runFrom (fun s => decide (memberNames s 0).Nodup) hs (by decide)
    simpa using hdec
  exact htwice (hunique 0)

end Comsg.Proofs.Nsd
