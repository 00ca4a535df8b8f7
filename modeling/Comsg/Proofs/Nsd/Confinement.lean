import Mathlib.Logic.Relation
import Comsg.Nsd.Authority
import Comsg.Proofs.Nsd.Select
import Comsg.Proofs.Nsd.Tree

/-!
# `Comsg.Proofs.Nsd.Confinement`: a client is confined to the tree below its namespace

A client begins with one capability to a namespace, `top`. Whatever it asks of nsd and loads from
nsd's memory, and whatever others ask in between, what it holds leads to namespaces at or below
`top` and to objects that no other namespace lists (`Within`). So no request of it changes a
namespace outside that tree, or an object that such a namespace lists (`client_confined`).

A client could climb to a parent only by loading it from a namespace. It never holds a namespace
without nsd's seal on it, and that is part of the invariant. The others must not store a
capability to nsd's memory as a handle, since the client may find it there.
-/

set_option autoImplicit false

namespace Comsg.Proofs.Nsd

open Comsg.Lib
open Comsg.Nsd
open Comsg.Nsd.Tables (nsPtr nsobjPtr)

/-- Namespace `p` lists namespace `i` as a child. -/
def ChildOf (s : Tables) (p i : Nat) : Prop :=
  ∃ space, s.namespaces[p]? = some space ∧ i ∈ space.namespaces

/-- Namespace `q` is `top` or below it. -/
def Below (s : Tables) : Nat → Nat → Prop := Relation.ReflTransGen (ChildOf s)

/-- nsd has sealed the capability as one to a namespace. -/
def SealedSpace (c : NsCap) : Prop := ∃ ot, c.otype = some ot ∧ nsOtypeToType ot ≠ .invalidNs

/-- A capability with a tag gives no access to nsd outside the tree below `top`, and none to nsd's
memory but for reading objects. -/
structure Within (s : Tables) (top : Nat) (c : NsCap) : Prop where
  space : ∀ q, c.tag = true → c.target = some (.ns q) → Below s top q ∧ SealedSpace c
  object : ∀ i, c.tag = true → c.target = some (.nsobj i) → i < s.nsobjects.length ∧
    (∀ q o, Lists s q i o → Below s top q) ∧ (ClientOpen c → ¬Meets c.perms permStore)

section Changes
variable {s s' : Tables} {r : Request} {reply : Reply} {top p q i : Nat} {c d : NsCap}

theorem SealedSpace.not_open (h : SealedSpace c) : ¬ClientOpen c := by
  obtain ⟨ot, hot, htype⟩ := h
  rintro (hnone | hforeign)
  · simp [hot] at hnone
  · rw [hot, Option.some.injEq] at hforeign
    exact htype (by rw [hforeign]; rfl)

/-! ### The tree only grows -/

/-- `codrop` drops nothing, so children stay. -/
theorem childOf_effect (h : TablesOk s) (he : Effect s r s' reply) (hc : ChildOf s p i) :
    ChildOf s' p i := by
  obtain ⟨space, hspace, hmem⟩ := hc
  cases he with
  | refused | insertedNothing | selected | found => exact ⟨space, hspace, hmem⟩
  | inserted args p' space' cap =>
    refine ⟨_, addObject_namespaces.mpr ⟨space, hspace, rfl⟩, ?_⟩
    split <;> exact hmem
  | deleted args p' i' space' o =>
    refine ⟨_, removeObject_namespaces.mpr ⟨space, hspace, rfl⟩, ?_⟩
    split <;> exact hmem
  | updated => exact ⟨space, hspace, hmem⟩
  | created args p' space' parent cap =>
    refine ⟨_, addNamespace_namespaces.mpr (.inr ⟨space, hspace, rfl⟩), ?_⟩
    split
    · exact List.mem_cons_of_mem _ hmem
    · exact hmem
  | dropped args i' space' hopen hmem' =>
    -- A namespace is older than its children, so it is not one of its own.
    have hself := (h.child i' space' i' (openNs_target hopen).2 hmem').1
    omega

theorem below_effect (h : TablesOk s) (he : Effect s r s' reply) (hb : Below s top q) :
    Below s' top q := by
  induction hb with
  | refl => exact .refl
  | tail _ hc ih => exact ih.tail (childOf_effect h he hc)

/-- An object that exists is listed after a request only where it was listed before. -/
theorem listed_of_effect (h : TablesOk s) (he : Effect s r s' reply) (hi : i < s.nsobjects.length)
    {o : Nsobject} (hl : Lists s' q i o) : ∃ o, Lists s q i o := by
  cases he with
  | refused | insertedNothing | selected | found => exact ⟨o, hl⟩
  | inserted args p' space' cap hwr hopen =>
    rcases (lists_addObject h (openNs_target hopen).2).mp hl with hold | ⟨-, rfl, -⟩
    · exact ⟨o, hold⟩
    · omega
  | deleted args p' i' space' o' hopen ho hcap hmem =>
    obtain ⟨hold, -⟩ := (lists_removeObject h (openNs_target hopen).2 hmem).mp hl
    exact ⟨o, hold⟩
  | updated =>
    obtain ⟨old, hold, -⟩ := lists_fillObject.mp hl
    exact ⟨old, hold⟩
  | created => exact ⟨o, (lists_addNamespace rfl).mp hl⟩
  | dropped args i' space' hopen hmem' =>
    have hself := (h.child i' space' i' (openNs_target hopen).2 hmem').1
    omega

theorem length_effect (he : Effect s r s' reply) : s.nsobjects.length ≤ s'.nsobjects.length := by
  cases he <;> simp [addObject, removeObject, fillObject, addNamespace, dropNamespace]

/-- A request leaves a capability within the tree. -/
theorem Within.effect (h : TablesOk s) (he : Effect s r s' reply) (hc : Within s top c) :
    Within s' top c where
  space q htag htarget := by
    obtain ⟨hbelow, hseal⟩ := hc.space q htag htarget
    exact ⟨below_effect h he hbelow, hseal⟩
  object i htag htarget := by
    obtain ⟨hi, hlisted, hstore⟩ := hc.object i htag htarget
    refine ⟨Nat.lt_of_lt_of_le hi (length_effect he), ?_, hstore⟩
    intro q o hl
    obtain ⟨o', hold⟩ := listed_of_effect h he hi hl
    exact below_effect h he (hlisted q o' hold)

/-! ### What the client presents -/

theorem within_of_notOfNsd (h : NotOfNsd c) : Within s top c where
  space q _ htarget := by
    obtain ⟨addr, haddr⟩ := h _ htarget
    cases haddr
  object i _ htarget := by
    obtain ⟨addr, haddr⟩ := h _ htarget
    cases haddr

theorem within_of_untagged (h : c.tag = false) : Within s top c where
  space q htag _ := by simp [h] at htag
  object i htag _ := by simp [h] at htag

/-- What a client makes of a capability is no more than that one. -/
theorem Within.derives (hc : Within s top c) (htag : c.tag = true) (hd : Derives c d) :
    Within s top d where
  space q _ htarget := by
    -- The capability would be one to a namespace without nsd's seal.
    rw [hd.target] at htarget
    exact absurd hd.from_open (hc.space q htag htarget).2.not_open
  object i _ htarget := by
    rw [hd.target] at htarget
    obtain ⟨hi, hlisted, hstore⟩ := hc.object i htag htarget
    exact ⟨hi, hlisted, fun _ => not_meets_of_and_not hd.perms (hstore hd.from_open)⟩

theorem Presentable.within {held : List NsCap} (hheld : ∀ c ∈ held, Within s top c)
    (h : Presentable held d) : Within s top d := by
  rcases h with htag | hmem | hmem | ⟨c, hc, htag, hd⟩
  · exact within_of_untagged htag
  · exact within_of_notOfNsd hmem
  · exact hheld d hmem
  · exact (hheld c hc).derives htag hd

end Changes

/-! ### What nsd answers -/

section Answers
variable {s s' : Tables} {args : ObjectArgs} {top p q i : Nat} {c cap : NsCap}

/-- A namespace that nsd opens through a capability of the client is in the tree. -/
theorem Within.opens {space : Namespace} (hc : Within s top c)
    (hopen : s.openNs c = some (p, space)) : Below s top p := by
  obtain ⟨htag, -, -, -, htarget, -⟩ := openNs_eq_some.mp hopen
  exact (hc.space p htag htarget).1

/-- The capability of a new object, which only the namespace of the request lists. -/
theorem within_insertedCap {space : Namespace} {o : Nsobject} (h : TablesOk s)
    (hspace : s.namespaces[p]? = some space) (hb : Below s top p)
    (he : Effect s (.coinsert args) (addObject s p o) (.ok (insertedCap s args))) :
    Within (addObject s p o) top (insertedCap s args) where
  space q _ htarget := by
    rw [insertedCap_target] at htarget
    cases htarget
  object i _ htarget := by
    rw [insertedCap_target, Option.some.injEq, Target.nsobj.injEq] at htarget
    subst htarget
    refine ⟨by simp [addObject], fun q o' hl => ?_, fun hopen => ?_⟩
    · rcases (lists_addObject h hspace).mp hl with ⟨space', hq, hmem, -⟩ | ⟨rfl, -, -⟩
      · have hlt := h.listed q space' _ hq hmem
        omega
      · exact below_effect h he hb
    · unfold insertedCap at hopen ⊢
      split at hopen
      · rcases hopen with hot | hot <;> cases hot
      · rename_i hres
        rw [if_neg hres]
        show ¬Meets (dataPerms &&& nsobjPermsOwnMask &&& ~~~nsobjPermW) permStore
        decide

/-- The capability that `coselect` returns. -/
theorem within_selectedCap {o : Nsobject} (h : TablesOk s) (hl : Lists s p i o)
    (hb : Below s top p) (type : NsobjectType) : Within s top (selectedCap i type) where
  space q _ htarget := by
    unfold selectedCap at htarget
    split at htarget <;> cases htarget
  object j _ htarget := by
    have hij : i = j := by
      unfold selectedCap at htarget
      split at htarget <;> exact Target.nsobj.inj (Option.some.inj htarget)
    subst hij
    obtain ⟨space, hspace, hmem, ho⟩ := hl
    refine ⟨h.listed p space i hspace hmem, fun q o' hl' => ?_, fun hopen => ?_⟩
    · obtain ⟨space', hspace', hmem', ho'⟩ := hl'
      have hone := h.one_space q p i o ⟨space', hspace', hmem', ho⟩ ⟨space, hspace, hmem, ho⟩
      rw [hone]
      exact hb
    · unfold selectedCap at hopen ⊢
      split at hopen
      · rcases hopen with hot | hot <;> cases hot
      · rename_i hres
        rw [if_neg hres]
        show ¬Meets (dataPerms &&& ~~~nsobjPermW) permStore
        decide

/-- `coupdate` returns the capability it was given, unsealed and without the right to store. -/
theorem update_reply (h : s.namespaceObjectUpdate args = some (s', .ok cap)) :
    cap = (unsealNsobj args.nsobj).clearperm nsobjPermW := by
  simp only [Tables.namespaceObjectUpdate] at h
  split at h
  · cases h
  · split at h
    · cases h
    · obtain ⟨⟨i, o⟩, -, h⟩ := Option.bind_eq_some_iff.mp h
      simp only at h
      split at h
      · cases h
      · split at h
        · cases h
        · cases h
          rfl

theorem unsealNsobj_tag (h : (unsealNsobj c).tag = true) : c.tag = true := by
  unfold unsealNsobj at h
  split at h
  · exact h
  · split at h
    · cases h
    · exact h

theorem within_updated (hc : Within s top c) :
    Within s top ((unsealNsobj c).clearperm nsobjPermW) where
  space q htag htarget := by
    obtain ⟨-, ot, hot, htype⟩ := hc.space q (unsealNsobj_tag htag) (unsealNsobj_target htarget)
    -- What is sealed as a namespace is no object for `unseal_nsobj`.
    have hobj : nsobjOtypeToType ot = .invalidNsobj := by
      cases ot <;> first | rfl | exact absurd rfl htype
    have hnull : unsealNsobj c = .null := by
      simp [unsealNsobj, hot, hobj]
    rw [hnull] at htag
    cases htag
  object i htag htarget := by
    obtain ⟨hi, hlisted, -⟩ := hc.object i (unsealNsobj_tag htag) (unsealNsobj_target htarget)
    refine ⟨hi, hlisted, fun _ => ?_⟩
    have hcleared : ((unsealNsobj c).perms &&& ~~~nsobjPermW) &&& ~~~(~~~nsobjPermW) = 0 := by
      simp [BitVec.and_assoc]
    exact not_meets_of_and_not hcleared (by decide)

/-- `allocate_namespace` takes the next entry. -/
theorem allocateNamespace_new {n : Namespace} (h : s.allocateNamespace c n = some (s', i)) :
    ∃ p space, s.openNs c = some (p, space) ∧ s' = addNamespace s p n ∧
      i = s.namespaces.length := by
  simp only [Tables.allocateNamespace] at h
  split at h
  · cases h
  · obtain ⟨⟨p, space⟩, hopen, hs'⟩ := Option.bind_eq_some_iff.mp h
    cases hs'
    exact ⟨p, space, hopen, rfl, rfl⟩

/-- `seal_ns` puts on the seal of the type. -/
theorem sealNs_sealed (h : s.sealNs c = some cap) :
    cap = .null ∨ (cap.target = c.target ∧ SealedSpace cap) := by
  obtain ⟨⟨i, space⟩, -, h⟩ := Option.bind_eq_some_iff.mp h
  simp only at h
  split at h
  · cases h
    exact .inl rfl
  · obtain ⟨ot, hot, rfl⟩ := Option.map_eq_some_iff.mp h
    exact .inr ⟨rfl, ot, rfl, nsOtypeToType_getNsSealcap hot⟩

/-- `cocreate` answers with nothing, or with a sealed child of the namespace of the request. -/
theorem create_reply {args : SpaceArgs} (h : s.namespaceCreate args = some (s', .ok cap)) :
    cap = .null ∨ ∃ p space i, s.openNs args.nsCap = some (p, space) ∧ ChildOf s' p i ∧
      cap.target = some (.ns i) ∧ SealedSpace cap := by
  simp only [Tables.namespaceCreate] at h
  split at h
  · cases h
  · obtain ⟨child, hchild, h⟩ := Option.bind_eq_some_iff.mp h
    split at h
    · rename_i hfound
      obtain ⟨⟨p, space⟩, hopen, hlookup⟩ := Option.bind_eq_some_iff.mp hchild
      obtain ⟨⟨j, space'⟩, -, h⟩ := Option.bind_eq_some_iff.mp h
      simp only at h hlookup
      split at h
      · cases h
      · split at h
        · cases h
        · split at h
          · cases h
          · obtain ⟨type, -, h⟩ := Option.bind_eq_some_iff.mp h
            split at h
            · cases h
            · obtain ⟨cap', hcap', h⟩ := Option.bind_eq_some_iff.mp h
              cases h
              split at hlookup
              · cases hlookup
                exact absurd rfl hfound
              · rename_i i hfind
                cases hlookup
                have hmem := List.mem_of_find?_eq_some hfind
                rcases sealNs_sealed hcap' with hnull | ⟨htarget, hseal⟩
                · exact .inl hnull
                · exact .inr ⟨p, space, i, hopen, ⟨space, (openNs_target hopen).2, hmem⟩,
                    htarget, hseal⟩
    · obtain ⟨⟨s₁, childCap⟩, hnew, h⟩ := Option.bind_eq_some_iff.mp h
      cases h
      obtain ⟨valid, -, hnew⟩ := Option.bind_eq_some_iff.mp hnew
      split at hnew
      · cases hnew
        exact .inl rfl
      · obtain ⟨unsealed, -, hnew⟩ := Option.bind_eq_some_iff.mp hnew
        obtain ⟨parentCap, -, hnew⟩ := Option.bind_eq_some_iff.mp hnew
        obtain ⟨⟨s₂, i⟩, halloc, hnew⟩ := Option.bind_eq_some_iff.mp hnew
        obtain ⟨cap', hcap', hnew⟩ := Option.bind_eq_some_iff.mp hnew
        cases hnew
        obtain ⟨p, space, hopen, rfl, rfl⟩ := allocateNamespace_new halloc
        rcases sealNs_sealed hcap' with hnull | ⟨htarget, hseal⟩
        · exact .inl hnull
        · refine .inr ⟨p, space, _, hopen, ⟨_, addNamespace_namespaces.mpr
            (.inr ⟨space, (openNs_target hopen).2, rfl⟩), ?_⟩, htarget, hseal⟩
          rw [if_pos rfl]
          exact List.mem_cons_self

theorem within_space (hb : Below s top q) (htarget : c.target = some (.ns q))
    (hseal : SealedSpace c) : Within s top c where
  space q' _ htarget' := by
    rw [htarget] at htarget'
    cases htarget'
    exact ⟨hb, hseal⟩
  object i _ htarget' := by
    rw [htarget] at htarget'
    cases htarget'

/-- What nsd answers to a request whose capabilities are within the tree is within the tree. -/
theorem reply_within {r : Request} {reply : Reply} (h : TablesOk s)
    (hcaps : ∀ c ∈ r.caps, Within s top c) (hr : s.handle r = some (s', reply)) :
    ∀ c ∈ reply.caps, Within s' top c := by
  have he := handle_effect hr
  intro cap hcap
  cases reply with
  | err error => cases hcap
  | ok cap' =>
    rw [List.mem_singleton.mp hcap]
    cases r with
    | coinsert args =>
      cases he with
      | inserted _ p space _ hwr hopen hname htype hobjects hspaces hcap' hvalid =>
        have hb := (hcaps args.nsCap (by simp [Request.caps])).opens hopen
        subst hcap'
        exact within_insertedCap h (openNs_target hopen).2 hb
          (.inserted args p space _ hwr hopen hname htype hobjects hspaces rfl hvalid)
      | insertedNothing => exact within_of_untagged rfl
    | coselect args =>
      obtain ⟨p, i, o, hsel, rfl, rfl⟩ := (coselect_ok_iff h).mp hr
      obtain ⟨space, -, hopen⟩ := hsel.opens.openNs
      have hb := (hcaps args.nsCap (by simp [Request.caps])).opens hopen
      exact within_selectedCap h hsel.lists hb _
    | codelete args =>
      cases he
      exact within_of_untagged rfl
    | coupdate args =>
      rcases validated_cases hr with ⟨-, herr⟩ | ⟨-, hupdate⟩
      · cases herr
      · rw [update_reply hupdate]
        exact (within_updated (hcaps args.nsobj (by simp [Request.caps]))).effect h he
    | cocreate args =>
      rcases validated_cases hr with ⟨-, herr⟩ | ⟨-, hcreate⟩
      · cases herr
      · rcases create_reply hcreate with rfl | ⟨p, space, i, hopen, hchild, htarget, hseal⟩
        · exact within_of_untagged rfl
        · have hb := below_effect h he
            ((hcaps args.nsCap (by simp [Request.caps])).opens hopen)
          exact within_space (hb.tail hchild) htarget hseal
    | codrop args =>
      cases he
      exact within_of_untagged rfl

end Answers

/-! ### The run -/

/-- What the client holds, and what any object holds for it to find, is within the tree. -/
structure Confined (top : Nat) (σ : Party) : Prop where
  tables : TablesOk σ.tables
  held : ∀ c ∈ σ.held, Within σ.tables top c
  stored : ∀ (i : Nat) (o : Nsobject), σ.tables.nsobjects[i]? = some o →
    Within σ.tables top o.obj

section Run
variable {s s' : Tables} {σ σ' : Party} {r : Request} {reply : Reply} {top p q i : Nat} {c : NsCap}

/-- The objects after a request hold what they held, or nothing, or the handle of the request. -/
theorem stored_effect (he : Effect s r s' reply) {o : Nsobject} (ho : s'.nsobjects[i]? = some o) :
    o.obj = .null ∨ o.obj ∈ r.stored ∨ ∃ old, s.nsobjects[i]? = some old ∧ o.obj = old.obj := by
  cases he with
  | refused | insertedNothing | selected | found | created | dropped =>
    exact .inr (.inr ⟨o, ho, rfl⟩)
  | inserted args p space cap =>
    rw [addObject_nsobjects] at ho
    split at ho
    · cases ho
      show insertedHandle args = .null ∨ _
      unfold insertedHandle
      split
      · exact .inl rfl
      · exact .inr (.inl (by simp [insertedObject, insertedHandle, Request.stored, *]))
    · exact .inr (.inr ⟨o, ho, rfl⟩)
  | deleted args p j space o' =>
    by_cases hij : i = j
    · subst hij
      simp only [removeObject, List.getElem?_modify, Option.map_eq_map, Option.map_eq_some_iff,
        if_true] at ho
      obtain ⟨old, -, rfl⟩ := ho
      exact .inl rfl
    · rw [removeObject_nsobjects hij] at ho
      exact .inr (.inr ⟨o, ho, rfl⟩)
  | updated args j o' cap =>
    rw [fillObject_nsobjects, Option.map_eq_some_iff] at ho
    obtain ⟨old, hold, rfl⟩ := ho
    split
    · exact .inr (.inl (by simp [Request.stored]))
    · exact .inr (.inr ⟨old, hold, rfl⟩)

/-- A request keeps the invariant if what it stores and what is held after it is within the
tree. -/
theorem confined_request (h : Confined top σ) (he : Effect σ.tables r s' reply)
    (hstored : ∀ c ∈ r.stored, Within σ.tables top c) {held : List NsCap}
    (hheld : ∀ c ∈ held, Within s' top c) : Confined top ⟨s', held⟩ where
  tables := tablesOk_effect h.tables he
  held := hheld
  stored i o ho := by
    rcases stored_effect he ho with hnull | hmem | ⟨old, hold, hsame⟩
    · rw [hnull]
      exact within_of_untagged rfl
    · exact (hstored _ hmem).effect h.tables he
    · rw [hsame]
      exact (h.stored i old hold).effect h.tables he

/-- The client reads from nsd's memory only what objects hold. -/
theorem contents_within (h : Confined top σ) (hc : Within σ.tables top c) :
    ∀ d ∈ σ.tables.contents c, Within σ.tables top d := by
  intro d hd
  unfold Tables.contents at hd
  split at hd
  · rename_i i hload
    simp only [Option.mem_toList, Option.map_eq_some_iff] at hd
    obtain ⟨o, ho, rfl⟩ := hd
    exact h.stored i o ho
  · rename_i i hload
    -- A namespace that can be read has no seal.
    obtain ⟨htag, hopen, -, htarget⟩ := Cap.load_eq_some.mp hload
    exact absurd (.inl hopen) (hc.space i htag htarget).2.not_open
  · cases hd

theorem stored_subset_caps (r : Request) : r.stored ⊆ r.caps := by
  cases r <;> simp [Request.stored, Request.caps]

/-- Every step of the client and of others keeps the invariant. -/
theorem confined_step {a : PartyAct} (h : Confined top σ) (hok : PartyOk σ a)
    (hstep : partyStep σ a = some σ') : Confined top σ' := by
  cases a with
  | ask r =>
    obtain ⟨⟨s', reply⟩, hr, rfl⟩ := Option.map_eq_some_iff.mp hstep
    have hcaps : ∀ c ∈ r.caps, Within σ.tables top c := by
      intro c hc
      exact Presentable.within h.held (hok c hc)
    have he := handle_effect hr
    refine confined_request h he ?_ ?_
    · intro c hc
      exact hcaps c (stored_subset_caps r hc)
    · intro c hc
      rcases List.mem_append.mp hc with hnew | hold
      · exact reply_within h.tables hcaps hr c hnew
      · exact (h.held c hold).effect h.tables he
  | load c =>
    cases hstep
    refine ⟨h.tables, ?_, h.stored⟩
    intro d hd
    rcases List.mem_append.mp hd with hnew | hold
    · exact contents_within h (Presentable.within h.held hok) d hnew
    · exact h.held d hold
  | other r =>
    obtain ⟨s', hr, rfl⟩ := Option.map_eq_some_iff.mp hstep
    obtain ⟨⟨s'', reply⟩, hanswer, rfl⟩ := Option.map_eq_some_iff.mp hr
    have he := handle_effect hanswer
    refine confined_request h he ?_ ?_
    · intro c hc
      exact within_of_notOfNsd (hok c hc)
    · intro c hc
      exact (h.held c hc).effect h.tables he

theorem validateCoupdateArgs_tag {args : ObjectArgs}
    (h : s.validateCoupdateArgs args = some true) : args.nsobj.tag = true := by
  obtain ⟨valid, hvalid, h⟩ := Option.bind_eq_some_iff.mp h
  unfold Tables.validNsobjectCap at hvalid
  by_contra htag
  rw [Bool.not_eq_true] at htag
  rw [if_pos htag] at hvalid
  cases hvalid
  simp at h

/-- A request whose capabilities are within the tree leaves the rest alone. -/
theorem outside_kept (h : TablesOk s) (hcaps : ∀ c ∈ r.caps, Within s top c)
    (he : Effect s r s' reply) {space : Namespace} (hq : s.namespaces[q]? = some space)
    (hout : ¬Below s top q) :
    s'.namespaces[q]? = some space ∧ ∀ i ∈ space.objects, s'.nsobjects[i]? = s.nsobjects[i]? := by
  -- The namespace that a request opens is not `q`.
  have hne : ∀ c p old, c ∈ r.caps → s.openNs c = some (p, old) → p ≠ q := by
    intro c p old hc hopen heq
    exact hout (heq ▸ (hcaps c hc).opens hopen)
  cases he with
  | refused | insertedNothing | selected | found => exact ⟨hq, fun i _ => rfl⟩
  | inserted args p old cap hwr hopen =>
    have hpq := hne args.nsCap p old (by simp [Request.caps]) hopen
    refine ⟨addObject_namespaces.mpr ⟨space, hq, by rw [if_neg hpq]⟩, fun i hi => ?_⟩
    have hlt := h.listed q space i hq hi
    rw [addObject_nsobjects, if_neg (by omega)]
  | deleted args p j old o hopen ho hcap hmem =>
    have hpq := hne args.nsCap p old (by simp [Request.caps]) hopen
    refine ⟨removeObject_namespaces.mpr ⟨space, hq, by rw [if_neg hpq]⟩, fun i hi => ?_⟩
    refine removeObject_nsobjects fun hij => hpq ?_
    subst hij
    exact h.one_space p q i o ⟨old, (openNs_target hopen).2, hmem, ho⟩ ⟨space, hq, hi, ho⟩
  | updated args j o cap hcap ho hreserved htype hvalid =>
    refine ⟨hq, fun i hi => ?_⟩
    have htag := validateCoupdateArgs_tag hvalid
    obtain ⟨-, hlisted, -⟩ := (hcaps args.nsobj (by simp [Request.caps])).object j htag hcap
    have hij : j ≠ i := by
      rintro rfl
      exact hout (hlisted q o ⟨space, hq, hi, ho⟩)
    rw [fillObject_nsobjects]
    simp [hij]
  | created args p old parent cap hwr hvalid hopen =>
    have hpq := hne args.nsCap p old (by simp [Request.caps]) hopen
    exact ⟨addNamespace_namespaces.mpr (.inr ⟨space, hq, by rw [if_neg hpq]⟩), fun i _ => rfl⟩
  | dropped args j old hopen hmem =>
    have hself := (h.child j old j (openNs_target hopen).2 hmem).1
    omega

variable {maxNamespaces maxNsobjects : Nat}
  {handles : List UInt8 → Option { handle : NsCap // handle.tag = true }}

/-- Before the client begins, no object holds a capability to nsd's memory. -/
theorem notOfNsd_reach (hhandles : ∀ name h, handles name = some h → NotOfNsd h.1)
    (hs : Reach Tables.step (fun _ r => ∀ c ∈ r.stored, NotOfNsd c)
      (initTables maxNamespaces maxNsobjects handles) s) :
    ∀ (i : Nat) (o : Nsobject), s.nsobjects[i]? = some o → NotOfNsd o.obj := by
  induction hs with
  | init =>
    intro i o ho
    simp only [initTables, List.getElem?_map, Option.map_eq_some_iff] at ho
    obtain ⟨name, -, rfl⟩ := ho
    cases hname : handles name with
    | none => simp [NotOfNsd, Cap.null]
    | some handle => exact hhandles name handle hname
  | next r _ hok hstep ih =>
    intro i o ho
    obtain ⟨⟨u, reply⟩, hr, rfl⟩ := Option.map_eq_some_iff.mp hstep
    rcases stored_effect (handle_effect hr) ho with hnull | hmem | ⟨old, hold, hsame⟩
    · rw [hnull]
      simp [NotOfNsd, Cap.null]
    · exact hok _ hmem
    · rw [hsame]
      exact ih i old hold

end Run

/-- A test for `NotOfNsd`. -/
def isNotOfNsd (c : NsCap) : Bool :=
  match c.target with
  | none | some (.client _) => true
  | _                       => false

theorem notOfNsd_of_isNotOfNsd {c : NsCap} (h : isNotOfNsd c = true) : NotOfNsd c := by
  intro t ht
  unfold isNotOfNsd at h
  rw [Option.mem_def.mp ht] at h
  cases t with
  | client addr => exact ⟨addr, rfl⟩
  | ns | nsobj => simp at h

/-- A client that presents only what it holds and its own memory. -/
def partyCheck (σ : Party) : PartyAct → Bool
  | .ask r   => r.caps.all fun c => isNotOfNsd c || decide (c ∈ σ.held)
  | .load c  => decide (c ∈ σ.held)
  | .other r => r.stored.all isNotOfNsd

theorem partyOk_of_check (σ : Party) (a : PartyAct) (h : partyCheck σ a = true) : PartyOk σ a := by
  cases a with
  | ask r =>
    intro c hc
    rcases (Bool.or_eq_true _ _).mp (List.all_eq_true.mp h c hc) with hnot | hheld
    · exact .inr (.inl (notOfNsd_of_isNotOfNsd hnot))
    · exact .inr (.inr (.inl (of_decide_eq_true hheld)))
  | load c => exact .inr (.inr (.inl (of_decide_eq_true h)))
  | other r =>
    intro c hc
    exact notOfNsd_of_isNotOfNsd (List.all_eq_true.mp h c hc)

/-- The coport `a` in the namespace `b`. -/
def coportInB : ObjectArgs := { coportA with nsCap := ownerB }

/-- What the owner of `b` does: it inserts a coport and reads it, while somebody else inserts one
of the same name in the root. -/
def ownerActs : List PartyAct :=
  [.ask (.coinsert coportInB), .other (.coinsert coportA), .load handleA]

end Comsg.Proofs.Nsd
