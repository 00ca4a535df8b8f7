import Comsg.Proofs.Nsd.Capacity

/-!
# `Comsg.Proofs.Nsd.Counters`: nsd's counters against its lists

nsd counts the members of each namespace (`nobjects`, `nspaces`) and the entries of each table
(`nsobject_count`, `namespace_count`). `TallyEffect` says what a request does to the lists and the
counters together, and `tally_effect` that there is nothing else.

`delete_nsobject` unlinks the object and calls `nsobject_deleted`, which takes it off
`nsobject_count`. Nothing takes it off `nobjects`. So `nobjects` is the length of the list and the
number of objects that were deleted from it (`Tallied`), and the counters match the lists as long
as no object was deleted (`counters_match_iff`).
-/

set_option autoImplicit false

namespace Comsg.Proofs.Nsd

open Comsg.Lib
open Comsg.Nsd

/-- Every counter is the length of the list that it is for. -/
structure CountersMatch (c : Counted) : Prop where
  nobjects : ∀ (p : Nat) (n : Namespace), c.tables.namespaces[p]? = some n →
    c.nobjects p = n.objects.length
  nspaces : ∀ (p : Nat) (n : Namespace), c.tables.namespaces[p]? = some n →
    c.nspaces p = n.namespaces.length
  nsobjectCount : c.nsobjectTable.count = (members c.tables).length
  namespaceCount : c.namespaceTable.count = c.tables.namespaces.length

/-- The request is a `codelete` that finds its object in the namespace, and may delete it. -/
def DeletesObject (s : Tables) : Request → Prop
  | .codelete args => ∃ p i o, Deletes s args p i o
  | _              => False

/-- What a request does to the lists and the counters. -/
inductive TallyEffect (c : Counted) : Request → Counted → Prop
  | kept (r : Request) (s : Tables) (hr : ¬DeletesObject c.tables r)
      (hs : s.namespaces = c.tables.namespaces) : TallyEffect c r { c with tables := s }
  | inserted (args : ObjectArgs) (p : Nat) (space : Namespace) (o : Nsobject)
      (hp : c.tables.namespaces[p]? = some space) :
      TallyEffect c (.coinsert args) { c with
        tables := addObject c.tables p o
        nsobjectTable := ⟨c.nsobjectTable.next + 1, c.nsobjectTable.count + 1, false⟩
        nobjects := bump c.nobjects p }
  | created (args : SpaceArgs) (p : Nat) (space n : Namespace)
      (hp : c.tables.namespaces[p]? = some space) (hobjects : n.objects = [])
      (hspaces : n.namespaces = []) :
      TallyEffect c (.cocreate args) { c with
        tables := addNamespace c.tables p n
        namespaceTable := ⟨c.namespaceTable.next + 1, c.namespaceTable.count + 1, false⟩
        nspaces := bump c.nspaces p }
  | deleted (args : ObjectArgs) (p i : Nat) (space : Namespace)
      (hr : DeletesObject c.tables (.codelete args)) (hp : c.tables.namespaces[p]? = some space)
      (hi : i ∈ space.objects) :
      TallyEffect c (.codelete args) { c with
        tables := removeObject c.tables p i
        nsobjectTable := { c.nsobjectTable with count := c.nsobjectTable.count - 1 } }

/-! ### Which counter -/

section Counts
variable {c c' : Counted} {r : Request} {reply : Reply}

theorem bind_eq_ok {α β : Type} {x : Except Fault α} {f : α → Except Fault β} {b : β}
    (h : (x >>= f) = .ok b) : ∃ a, x = .ok a ∧ f a = .ok b := by
  cases x with
  | error e => cases h
  | ok a => exact ⟨a, rfl, h⟩

theorem orFault_eq_ok {α : Type} {x : Option α} {a : α} (h : orFault x = .ok a) : x = some a := by
  cases x with
  | none => cases h
  | some b =>
    cases h
    rfl

theorem validated_eq_ok {valid : Option Bool} {handler : Except Fault (Counted × Reply)}
    (h : c.validated valid handler = .ok (c', reply)) : c' = c ∨ handler = .ok (c', reply) := by
  obtain ⟨ok, -, h⟩ := bind_eq_ok h
  split at h
  · cases h
    exact .inl rfl
  · exact .inr h

/-- A new object is counted in the namespace that the capability opens. -/
theorem newNsobject_nobjects {name : List UInt8} {type : NsobjectType} {parent obj : NsCap}
    (h : c.newNsobject name type parent = .ok (c', obj)) : c'.nobjects = c.nobjects ∨
      ∃ p space, c.tables.openNs parent = some (p, space) ∧ c'.nobjects = bump c.nobjects p := by
  obtain ⟨valid, -, h⟩ := bind_eq_ok h
  split at h
  · cases h
    exact .inl rfl
  · obtain ⟨⟨c₁, entry⟩, halloc, h⟩ := bind_eq_ok h
    obtain ⟨⟨t, e⟩, -, halloc⟩ := bind_eq_ok halloc
    obtain ⟨⟨p, space⟩, hopen, halloc⟩ := bind_eq_ok halloc
    have hc₁ : c₁.nobjects = bump c.nobjects p := by
      cases e with
      | none =>
        cases halloc
        rfl
      | some i =>
        cases halloc
        rfl
    refine .inr ⟨p, space, orFault_eq_ok hopen, ?_⟩
    rw [← hc₁]
    cases entry with
    | none =>
      cases h
      rfl
    | some i =>
      cases h
      rfl

theorem insert_nobjects {args : ObjectArgs} (h : c.handle (.coinsert args) = .ok (c', reply)) :
    c'.nobjects = c.nobjects ∨
      ∃ p space, c.tables.openNs args.nsCap = some (p, space) ∧
        c'.nobjects = bump c.nobjects p := by
  obtain rfl | h := validated_eq_ok h
  · exact .inl rfl
  unfold Counted.namespaceObjectInsert at h
  split at h
  · cases h
    exact .inl rfl
  obtain ⟨present, -, h⟩ := bind_eq_ok h
  split at h
  · cases h
    exact .inl rfl
  obtain ⟨⟨c₁, obj⟩, hnew, h⟩ := bind_eq_ok h
  -- What follows stores a handle, and counts nothing.
  have hsame : c'.nobjects = c₁.nobjects := by
    simp only at h
    split at h
    case h_4 =>
      obtain ⟨⟨i, o⟩, -, h⟩ := bind_eq_ok h
      obtain ⟨cap, -, h⟩ := bind_eq_ok h
      cases h
      rfl
    case h_5 =>
      cases h
      rfl
    all_goals
      obtain ⟨⟨i, o⟩, -, h⟩ := bind_eq_ok h
      cases h
      rfl
  rw [hsame]
  exact newNsobject_nobjects hnew

/-- A new namespace is counted in the one that the capability opens. -/
theorem newNamespace_nspaces {name : List UInt8} {type : NsType} {parent cap : NsCap}
    (h : c.newNamespace name type parent = .ok (c', cap)) : c'.nspaces = c.nspaces ∨
      ∃ p space, c.tables.openNs parent = some (p, space) ∧ c'.nspaces = bump c.nspaces p := by
  obtain ⟨valid, -, h⟩ := bind_eq_ok h
  split at h
  · cases h
    exact .inl rfl
  · obtain ⟨unsealed, -, h⟩ := bind_eq_ok h
    obtain ⟨parentCap, -, h⟩ := bind_eq_ok h
    obtain ⟨⟨c₁, entry⟩, halloc, h⟩ := bind_eq_ok h
    obtain ⟨⟨t, e⟩, -, halloc⟩ := bind_eq_ok halloc
    obtain ⟨⟨p, space⟩, hopen, halloc⟩ := bind_eq_ok halloc
    have hc₁ : c₁.nspaces = bump c.nspaces p := by
      cases e with
      | none =>
        cases halloc
        rfl
      | some i =>
        cases halloc
        rfl
    refine .inr ⟨p, space, orFault_eq_ok hopen, ?_⟩
    rw [← hc₁]
    cases entry with
    | none =>
      cases h
      rfl
    | some i =>
      obtain ⟨cap', -, h⟩ := bind_eq_ok h
      cases h
      rfl

theorem create_nspaces {args : SpaceArgs} (h : c.handle (.cocreate args) = .ok (c', reply)) :
    c'.nspaces = c.nspaces ∨
      ∃ p space, c.tables.openNs args.nsCap = some (p, space) ∧ c'.nspaces = bump c.nspaces p := by
  obtain rfl | h := validated_eq_ok h
  · exact .inl rfl
  unfold Counted.namespaceCreate at h
  split at h
  · cases h
    exact .inl rfl
  obtain ⟨child, -, h⟩ := bind_eq_ok h
  split at h
  · obtain ⟨⟨s, reply'⟩, -, h⟩ := bind_eq_ok h
    cases h
    exact .inl rfl
  · obtain ⟨⟨c₁, childCap⟩, hnew, h⟩ := bind_eq_ok h
    cases h
    exact newNamespace_nspaces hnew

theorem others_eq_ok {answer : Option (Tables × Reply)}
    (h : c.others answer = .ok (c', reply)) : c'.nsobjectTable = c.nsobjectTable := by
  obtain ⟨⟨s, reply'⟩, -, h⟩ := bind_eq_ok h
  cases h
  rfl

/-- `codelete` counts down when it succeeds. -/
theorem delete_count {args : ObjectArgs} (h : c.handle (.codelete args) = .ok (c', reply)) :
    c'.nsobjectTable.count =
      if reply.isOk = true then c.nsobjectTable.count - 1 else c.nsobjectTable.count := by
  have hvalid := h
  simp only [Counted.handle, Counted.validated] at hvalid
  obtain ⟨ok, -, hvalid⟩ := bind_eq_ok hvalid
  split at hvalid
  · cases hvalid
    rfl
  unfold Counted.namespaceObjectDelete at hvalid
  split at hvalid
  · cases hvalid
    rfl
  obtain ⟨_, -, hvalid⟩ := bind_eq_ok hvalid
  obtain ⟨⟨c₁, reply₁⟩, hothers, hvalid⟩ := bind_eq_ok hvalid
  have hc₁ := others_eq_ok hothers
  simp only at hvalid
  split at hvalid
  next hok =>
    cases hvalid
    rw [if_pos hok, hc₁]
  next hok =>
    cases hvalid
    rw [if_neg hok, hc₁]

/-- The other requests leave the count alone. -/
theorem other_count (hkind : MakesNothing r) (hr : ∀ args, r ≠ .codelete args)
    (h : c.handle r = .ok (c', reply)) : c'.nsobjectTable = c.nsobjectTable := by
  cases r with
  | coinsert args => exact absurd rfl (hkind args ⟨.null, [], .root⟩).1
  | cocreate args => exact absurd rfl (hkind ⟨.null, [], .null, .commap, .null⟩ args).2
  | codelete args => exact absurd rfl (hr args)
  | coupdate args => exact others_eq_ok h
  | coselect args =>
    obtain rfl | h := validated_eq_ok h
    · rfl
    · obtain ⟨_, -, h⟩ := bind_eq_ok h
      exact others_eq_ok h
  | codrop args =>
    obtain rfl | h := validated_eq_ok h
    · rfl
    unfold Counted.namespaceDrop at h
    split at h
    · cases h
      rfl
    obtain ⟨⟨i, space⟩, -, h⟩ := bind_eq_ok h
    obtain ⟨_, -, h⟩ := bind_eq_ok h
    obtain ⟨child, -, h⟩ := bind_eq_ok h
    split at h
    · cases h
      rfl
    · obtain ⟨_, -, h⟩ := bind_eq_ok h
      exact others_eq_ok h

/-- The requests that change no list. -/
theorem namespaces_effect {s s' : Tables} (hok : TablesOk s) (hkind : MakesNothing r)
    (hr : ∀ args, r ≠ .codelete args) (he : Effect s r s' reply) :
    s'.namespaces = s.namespaces := by
  cases he with
  | inserted args => exact absurd rfl (hkind args ⟨.null, [], .root⟩).1
  | created args => exact absurd rfl (hkind ⟨.null, [], .null, .commap, .null⟩ args).2
  | deleted args => exact absurd rfl (hr args)
  | dropped args i space hopen hmem =>
    -- A child is a later entry than its parent.
    exact absurd (hok.child i space i (openNs_target hopen).2 hmem).1 (Nat.lt_irrefl i)
  | _ => rfl

theorem not_deletesObject (hr : ∀ args, r ≠ .codelete args) {s : Tables} : ¬DeletesObject s r := by
  cases r with
  | codelete args => exact absurd rfl (hr args)
  | _ => exact id

/-- `codelete`: it is refused, or the object is unlinked and counted off. -/
theorem tally_delete (hok : TablesOk c.tables) {args : ObjectArgs} {s : Tables} {count : Nat}
    (hcount : count =
      if reply.isOk = true then c.nsobjectTable.count - 1 else c.nsobjectTable.count)
    (h : c.tables.handle (.codelete args) = some (s, reply)) :
    TallyEffect c (.codelete args) { c with
      tables := s
      nsobjectTable := { c.nsobjectTable with count := count } } := by
  cases reply with
  | err error =>
    obtain rfl : count = c.nsobjectTable.count := hcount
    obtain rfl : s = c.tables := by
      cases handle_effect h with
      | refused => rfl
    refine .kept _ _ ?_ rfl
    rintro ⟨p, i, o, hdel⟩
    -- A deletion that can succeed is not refused.
    have hsucceeds := (codelete_ok_iff hok).mpr ⟨p, i, o, hdel, rfl, rfl⟩
    rw [h] at hsucceeds
    cases (Prod.mk.inj (Option.some.inj hsucceeds)).2
  | ok cap =>
    obtain rfl : count = c.nsobjectTable.count - 1 := hcount
    obtain ⟨p, i, o, hdel, rfl, rfl⟩ := (codelete_ok_iff hok).mp h
    obtain ⟨space, hp, hi, -⟩ := hdel.lists
    exact .deleted args p i space ⟨p, i, o, hdel⟩ hp hi

/-- What an answered request does to the lists and the counters. -/
theorem tally_effect (hs : Sound c) (ht : TreeOk c.tables) (hok : TablesOk c.tables)
    (h : c.handle r = .ok (c', reply)) : TallyEffect c r c' := by
  have he := counted_effect hs ht r
  rw [h] at he
  cases he with
  | kept _ _ hhandle =>
    by_cases hr : ∃ args, r = .codelete args
    · obtain ⟨args, rfl⟩ := hr
      exact tally_delete hok (delete_count h) hhandle
    · exact .kept r _ (not_deletesObject fun args heq => hr ⟨args, heq⟩) rfl
  | object args p s cap hneeds hroom hhandle hspaces hobjects =>
    cases handle_effect hhandle with
    | insertedNothing => omega
    | inserted _ q space _ hwr hopen =>
      -- The namespace that counts the object is the one that lists it.
      have hbump : bump c.nobjects p = bump c.nobjects q := by
        obtain hsame | ⟨q', space', hopen', heq⟩ := insert_nobjects h
        · have := congrFun hsame p
          simp [bump] at this
        · obtain ⟨rfl, -⟩ := Prod.mk.inj (Option.some.inj (hopen.symm.trans hopen'))
          exact heq
      rw [hbump]
      exact .inserted args q space _ (openNs_target hopen).2
  | space args p s cap hneeds hroom hhandle hspaces hobjects =>
    cases handle_effect hhandle with
    | found => omega
    | created _ q space parent _ hwr hvalid hopen =>
      have hbump : bump c.nspaces p = bump c.nspaces q := by
        obtain hsame | ⟨q', space', hopen', heq⟩ := create_nspaces h
        · have := congrFun hsame p
          simp [bump] at this
        · obtain ⟨rfl, -⟩ := Prod.mk.inj (Option.some.inj (hopen.symm.trans hopen'))
          exact heq
      rw [hbump]
      exact .created args q space _ (openNs_target hopen).2 rfl rfl
  | other _ s _ count hhandle hkind hspaces hobjects =>
    by_cases hr : ∃ args, r = .codelete args
    · obtain ⟨args, rfl⟩ := hr
      exact tally_delete hok (delete_count h) hhandle
    · have hne : ∀ args, r ≠ .codelete args := fun args heq => hr ⟨args, heq⟩
      obtain rfl : count = c.nsobjectTable.count :=
        congrArg EntryTable.count (other_count hkind hne h)
      exact .kept r s (not_deletesObject hne)
        (namespaces_effect hok hkind hne (handle_effect hhandle))

end Counts

/-! ### The invariant -/

/-- `nobjects` counts the objects of a namespace and those that were deleted from it, `gone`. The
other counters match. -/
structure Tallied (c : Counted) (gone : Nat → Nat) : Prop where
  nobjects : ∀ (p : Nat) (n : Namespace), c.tables.namespaces[p]? = some n →
    c.nobjects p = n.objects.length + gone p
  nspaces : ∀ (p : Nat) (n : Namespace), c.tables.namespaces[p]? = some n →
    c.nspaces p = n.namespaces.length
  beyond : ∀ p, c.tables.namespaces.length ≤ p →
    c.nobjects p = 0 ∧ c.nspaces p = 0 ∧ gone p = 0
  nsobjectCount : c.nsobjectTable.count = (members c.tables).length
  namespaceCount : c.namespaceTable.count = c.tables.namespaces.length

section Steps
variable {c c' : Counted} {r : Request} {gone : Nat → Nat} {p : Nat}

theorem bump_self (f : Nat → Nat) (p : Nat) : bump f p p = f p + 1 := Function.update_self ..

theorem bump_of_ne (f : Nat → Nat) {p q : Nat} (h : q ≠ p) : bump f p q = f q :=
  Function.update_of_ne h ..

theorem Tallied.matches_iff (h : Tallied c gone) : CountersMatch c ↔ ∀ p, gone p = 0 := by
  constructor
  · intro hm p
    cases hp : c.tables.namespaces[p]? with
    | none => exact (h.beyond p (List.getElem?_eq_none_iff.mp hp)).2.2
    | some n =>
      have hcount := h.nobjects p n hp
      have hmatch := hm.nobjects p n hp
      omega
  · intro hgone
    refine ⟨fun p n hp => ?_, h.nspaces, h.nsobjectCount, h.namespaceCount⟩
    rw [h.nobjects p n hp, hgone p, Nat.add_zero]

theorem lt_length_of_getElem? {α : Type} {xs : List α} {i : Nat} {x : α} (h : xs[i]? = some x) :
    i < xs.length :=
  (List.getElem?_eq_some_iff.mp h).1

theorem Tallied.inserted (h : Tallied c gone) {space : Namespace} {o : Nsobject}
    (hp : c.tables.namespaces[p]? = some space) : Tallied { c with
      tables := addObject c.tables p o
      nsobjectTable := ⟨c.nsobjectTable.next + 1, c.nsobjectTable.count + 1, false⟩
      nobjects := bump c.nobjects p } gone where
  nobjects q n hq := by
    obtain ⟨old, hold, rfl⟩ := addObject_namespaces.mp hq
    have hcount := h.nobjects q old hold
    by_cases hpq : p = q
    · subst hpq
      simp only [if_true, List.length_cons, bump_self]
      omega
    · simp only [if_neg hpq, bump_of_ne _ (Ne.symm hpq)]
      exact hcount
  nspaces q n hq := by
    obtain ⟨old, hold, rfl⟩ := addObject_namespaces.mp hq
    rw [h.nspaces q old hold]
    split <;> rfl
  beyond q hq := by
    rw [show (addObject c.tables p o).namespaces.length = c.tables.namespaces.length by
      simp [addObject]] at hq
    have hne : q ≠ p := by
      have := lt_length_of_getElem? hp
      omega
    simp only [bump_of_ne _ hne]
    exact h.beyond q hq
  nsobjectCount := by
    have hperm : (members (addObject c.tables p o)).Perm
        (c.tables.nsobjects.length :: members c.tables) :=
      perm_flatMap_modify_cons hp rfl
    rw [hperm.length_eq, List.length_cons, h.nsobjectCount]
  namespaceCount := by simp [addObject, h.namespaceCount]

theorem Tallied.created (h : Tallied c gone) {space n : Namespace}
    (hp : c.tables.namespaces[p]? = some space) (hobjects : n.objects = [])
    (hspaces : n.namespaces = []) : Tallied { c with
      tables := addNamespace c.tables p n
      namespaceTable := ⟨c.namespaceTable.next + 1, c.namespaceTable.count + 1, false⟩
      nspaces := bump c.nspaces p } gone := by
  have hlt := lt_length_of_getElem? hp
  have hlen : (addNamespace c.tables p n).namespaces.length = c.tables.namespaces.length + 1 := by
    simp [addNamespace]
  constructor
  case nobjects =>
    intro q m hq
    obtain ⟨rfl, rfl⟩ | ⟨old, hold, rfl⟩ := addNamespace_namespaces.mp hq
    · -- Nothing was counted at the new entry before.
      obtain ⟨hn, -, hg⟩ := h.beyond _ (Nat.le_refl _)
      simp [hn, hg, hobjects]
    · simp only
      rw [h.nobjects q old hold]
      split <;> rfl
  case nspaces =>
    intro q m hq
    obtain ⟨rfl, rfl⟩ | ⟨old, hold, rfl⟩ := addNamespace_namespaces.mp hq
    · have hne : c.tables.namespaces.length ≠ p := by omega
      simp [bump_of_ne _ hne, (h.beyond _ (Nat.le_refl _)).2.1, hspaces]
    · have hcount := h.nspaces q old hold
      by_cases hpq : p = q
      · subst hpq
        simp only [if_true, List.length_cons, bump_self]
        omega
      · simp only [if_neg hpq, bump_of_ne _ (Ne.symm hpq)]
        exact hcount
  case beyond =>
    intro q hq
    simp only [hlen] at hq
    have hne : q ≠ p := by omega
    simp only [bump_of_ne _ hne]
    exact h.beyond q (by omega)
  case nsobjectCount =>
    have hmembers : members (addNamespace c.tables p n) = members c.tables := by
      simp only [members, addNamespace, List.flatMap_append, List.flatMap_singleton, hobjects,
        List.append_nil]
      exact flatMap_modify_of_eq fun m => rfl
    simp only [hmembers]
    exact h.nsobjectCount
  case namespaceCount =>
    simp only [hlen]
    rw [h.namespaceCount]

/-- A deletion leaves `nobjects` as it was. -/
theorem Tallied.deleted (h : Tallied c gone) {i : Nat} {space : Namespace}
    (hp : c.tables.namespaces[p]? = some space) (hi : i ∈ space.objects) : Tallied { c with
      tables := removeObject c.tables p i
      nsobjectTable := { c.nsobjectTable with count := c.nsobjectTable.count - 1 } }
      (bump gone p) where
  nobjects q n hq := by
    obtain ⟨old, hold, rfl⟩ := removeObject_namespaces.mp hq
    have hcount := h.nobjects q old hold
    by_cases hpq : p = q
    · subst hpq
      obtain rfl : old = space := Option.some.inj (hold.symm.trans hp)
      have hlen := List.length_erase_of_mem hi
      have hpos := List.length_pos_of_mem hi
      simp only [if_true, bump_self]
      omega
    · simp only [if_neg hpq, bump_of_ne _ (Ne.symm hpq)]
      exact hcount
  nspaces q n hq := by
    obtain ⟨old, hold, rfl⟩ := removeObject_namespaces.mp hq
    simp only
    rw [h.nspaces q old hold]
    split <;> rfl
  beyond q hq := by
    rw [show (removeObject c.tables p i).namespaces.length = c.tables.namespaces.length by
      simp [removeObject]] at hq
    have hne : q ≠ p := by
      have := lt_length_of_getElem? hp
      omega
    simp only [bump_of_ne _ hne]
    exact h.beyond q hq
  nsobjectCount := by
    have hperm : (members c.tables).Perm (i :: members (removeObject c.tables p i)) :=
      perm_flatMap_modify_erase hp rfl hi
    have hlen := hperm.length_eq
    rw [List.length_cons] at hlen
    simp only [h.nsobjectCount, hlen, Nat.add_sub_cancel]
  namespaceCount := by simp [removeObject, h.namespaceCount]

/-- One request. -/
theorem Tallied.step (h : Tallied c gone) (he : TallyEffect c r c') :
    (¬DeletesObject c.tables r ∧ Tallied c' gone) ∨
      (DeletesObject c.tables r ∧ ∃ p, Tallied c' (bump gone p)) := by
  cases he with
  | kept _ s hr hs =>
    refine .inl ⟨hr, fun p n hp => h.nobjects p n (hs ▸ hp), fun p n hp => h.nspaces p n (hs ▸ hp),
      fun p hp => h.beyond p (hs ▸ hp), ?_, ?_⟩
    · rw [h.nsobjectCount, members, members, hs]
    · rw [h.namespaceCount, hs]
  | inserted args p space o hp => exact .inl ⟨id, h.inserted hp⟩
  | created args p space n hp hobjects hspaces => exact .inl ⟨id, h.created hp hobjects hspaces⟩
  | deleted args p i space hr hp hi => exact .inr ⟨hr, p, h.deleted hp hi⟩

end Steps

/-! ### Runs -/

section Runs
variable {maxNamespaces maxNsobjects : Nat} {c : Counted} {reqs : List Request}
  {handles : List UInt8 → Option { handle : NsCap // handle.tag = true }}

theorem tallied_init :
    Tallied (initCounted maxNamespaces maxNsobjects handles) fun _ => 0 where
  nobjects p n hp := by
    cases p with
    | zero =>
      cases hp
      simp [initCounted]
    | succ p => cases hp
  nspaces p n hp := by
    cases p with
    | zero =>
      cases hp
      rfl
    | succ p => cases hp
  beyond p hp := by
    cases p with
    | zero => cases hp
    | succ p => simp [initCounted]
  nsobjectCount := by simp [initCounted, initTables, members]
  namespaceCount := rfl

/-- The counters match the lists after a run if and only if no request of it deleted an object. A
deletion is never made up for. -/
theorem counters_match_iff
    (h : Run Counted.step anyAct (initCounted maxNamespaces maxNsobjects handles) reqs c) :
    CountersMatch c ↔ ∀ before r s s',
      Run.At Counted.step anyAct (initCounted maxNamespaces maxNsobjects handles) reqs before r s
        s' → ¬DeletesObject s.tables r := by
  -- The deletions are those that `gone` counts.
  have hgone : ∃ gone, Tallied c gone ∧ ((∀ p, gone p = 0) ↔ ∀ before r s s',
      Run.At Counted.step anyAct (initCounted maxNamespaces maxNsobjects handles) reqs before r s
        s' → ¬DeletesObject s.tables r) := by
    induction h with
    | init =>
      refine ⟨fun _ => 0, tallied_init, iff_of_true (fun _ => rfl) ?_⟩
      intro before r s s' hat
      exact absurd hat Run.At.not_nil
    | @next reqs t t' r hrun hok hstep ih =>
      obtain ⟨gone, htally, hiff⟩ := ih
      obtain ⟨hsound, htables⟩ := sound_reach hrun.reach
      obtain ⟨reply, hhandle⟩ := handle_of_step hstep
      have he := tally_effect hsound (treeOk_reach htables) (tablesOk_reach htables) hhandle
      have hnone := Run.forall_at_concat (P := fun c r => ¬DeletesObject c.tables r) hrun hok hstep
      obtain ⟨hr, htally'⟩ | ⟨hr, p, htally'⟩ := htally.step he
      · exact ⟨gone, htally', hiff.trans ((and_iff_left hr).symm.trans hnone.symm)⟩
      · refine ⟨bump gone p, htally', iff_of_false ?_ ?_⟩
        · intro hzero
          have := hzero p
          rw [bump_self] at this
          omega
        · intro hall
          exact (hnone.mp hall).2 hr
  obtain ⟨gone, htally, hiff⟩ := hgone
  exact htally.matches_iff.trans hiff

end Runs

/-- A child of the root and a coport in the root. -/
theorem counters_match_iff_two :
    ∃ c, runFrom Counted.step smallCounted [.cocreate spaceB, .coinsert coportA] = some c ∧
      c.nsobjectTable.count = 7 ∧ CountersMatch c := by
  obtain ⟨c, hc⟩ : ∃ c, runFrom Counted.step smallCounted [.cocreate spaceB, .coinsert coportA] =
      some c := Option.isSome_iff_exists.mp (by decide)
  have hcount : c.nsobjectTable.count = 7 :=
    eq_of_map_runFrom (fun c => c.nsobjectTable.count) hc (by decide)
  refine ⟨c, hc, hcount, (counters_match_iff (run_of_runFrom _ _ _ hc)).mpr ?_⟩
  intro before r s s' hat
  obtain ⟨after, hsplit⟩ := hat.split
  have hr : r ∈ [Request.cocreate spaceB, Request.coinsert coportA] := by
    rw [hsplit]
    simp
  refine not_deletesObject fun args heq => ?_
  subst heq
  simp at hr

/-- A coport that comes and goes. The root has the six objects that it had, and it counts seven. -/
theorem deleted_object_counted :
    ∃ c n, runFrom Counted.step smallCounted [.coinsert coportA, .codelete ownerDeletesA] =
        some c ∧ c.tables.namespaces[0]? = some n ∧ n.objects.length = 6 ∧ c.nobjects 0 = 7 ∧
      ¬CountersMatch c := by
  obtain ⟨c, hc⟩ : ∃ c, runFrom Counted.step smallCounted
      [.coinsert coportA, .codelete ownerDeletesA] = some c :=
    Option.isSome_iff_exists.mp (by decide)
  have hlist : c.tables.namespaces[0]?.map (fun n => n.objects.length) = some 6 :=
    eq_of_map_runFrom (fun c => c.tables.namespaces[0]?.map fun n => n.objects.length) hc
      (by decide)
  have hcount : c.nobjects 0 = 7 := eq_of_map_runFrom (fun c => c.nobjects 0) hc (by decide)
  obtain ⟨n, hn, hlen⟩ := Option.map_eq_some_iff.mp hlist
  refine ⟨c, n, hc, hn, hlen, hcount, fun hmatch => ?_⟩
  have := hmatch.nobjects 0 n hn
  omega

end Comsg.Proofs.Nsd
