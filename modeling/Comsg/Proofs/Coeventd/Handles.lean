import Comsg.Proofs.Coeventd.Answers

/-!
# `Comsg.Proofs.Coeventd.Handles`: the pointers to callback functions

`ccb_register` gives its client a pointer into `ccb_func_tbl`. The same pointer is in the list of
the provider, and in every callback that is installed with it.

`extend_ccb_table` calls `realloc` when the table is full. If that returns a new block, all these
pointers are left behind (`handle_left_behind`), since nobody keeps track of them. And a call of
it adds 4096 entries once, whatever the index of its caller. So when the table stays where it is,
and its counter is never more than one extension ahead of it (`InPlace`), the pointers stay valid
and every index is within the table (`handles_live`). The invariant is `HandlesOk`.
-/

set_option autoImplicit false

namespace Comsg.Proofs.Coeventd

open Comsg.Lib
open Comsg.Coeventd

/-- The function that a registration has filled in. -/
def filled (pc : Pc) : Option Ptr := if (pending pc).isSome then none else pointer pc

/-- The pointer is in the list of a record. -/
def Listed (d : Daemon) (ptr : Ptr) : Prop :=
  ∃ p, ∃ ccb ∈ (d.procTable p).callbacks, ∃ l, ccb.args = .provided l ∧ ptr ∈ l

/-- The entry is as it was registered, or its provider has died. -/
def SameEntry (f g : CocallbackFunc) : Prop := g = f ∨ g = asDead f

/-- The pointer leads to an entry of the table that provider `p` has registered. -/
def Provides (d : Daemon) (p : Nat) (ptr : Ptr) : Prop :=
  ptr.base = d.base ∧ ptr.idx < d.tblLen ∧ ∃ f, d.funcs[ptr.idx]? = some f ∧ f.provider = p

/-- A callback with coeventd's own function is the record of `p`, and its list leads to entries of
`p`. -/
def Linked (d : Daemon) (p : Nat) (ccb : Cocallback) : Prop :=
  (ccb.func = d.providerDeath → ∃ l, ccb.args = .provided l) ∧
    ∀ l, ccb.args = .provided l → ∀ ptr ∈ l, Provides d p ptr

/-- The entry under the pointer is the one that was registered. -/
def Stored (d : Daemon) (a : Action) (ptr : Ptr) : Prop :=
  ∃ pid scb flags newBase f, a = .request pid (.ccbRegister scb flags newBase) ∧
    d.funcs[ptr.idx]? = some f ∧ SameEntry ⟨scb, pid, flags⟩ f

/-- The table stays where it is when it is extended, and the counter is at most one extension
ahead of it. -/
def InPlace (s : Daemons) : PoolAct Action → Prop
  | .arrive _  => True
  | .advance r => ∀ pid scb flags newBase i,
      s.threads[r]? = some (.request pid (.ccbRegister scb flags newBase), .extend i) →
      s.shared.tblLen ≤ s.shared.funcs.length →
      newBase = s.shared.base ∧ s.shared.funcs.length ≤ s.shared.tblLen + baseTblLen

/-- What holds in every state. Entry 0 of the table is coeventd's own. -/
structure HandlesOk (s : Daemons) : Prop where
  death : s.shared.providerDeath = ⟨s.shared.base, 0⟩
  own : 0 < s.shared.funcs.length
  held : ∀ (r : Nat) a pc, s.threads[r]? = some (a, pc) → s.shared.Held a
  taken : ∀ (r : Nat) a pc i, s.threads[r]? = some (a, pc) → index pc = some i →
    i ≠ 0 ∧ i < s.shared.funcs.length
  distinct : ∀ (r r' : Nat) a a' pc pc' i, s.threads[r]? = some (a, pc) →
    s.threads[r']? = some (a', pc') → index pc = some i → index pc' = some i → r = r'
  placed : ∀ (r : Nat) a i, s.threads[r]? = some (a, .address i) → i < s.shared.tblLen
  live : ∀ (r : Nat) a pc ptr, s.threads[r]? = some (a, pc) → pointer pc = some ptr →
    ptr.base = s.shared.base ∧ ptr.idx < s.shared.tblLen
  stored : ∀ (r : Nat) a pc ptr, s.threads[r]? = some (a, pc) → filled pc = some ptr →
    Stored s.shared a ptr
  lists : ∀ p, ∀ ccb ∈ (s.shared.procTable p).callbacks, Linked s.shared p ccb
  unlisted : ∀ (r : Nat) a pc i, s.threads[r]? = some (a, pc) → pending pc = some i →
    ∀ ptr, Listed s.shared ptr → ptr.idx ≠ i

section Phases
variable {pc : Pc} {ptr : Ptr} {i : Nat}

theorem index_of_pending (h : pending pc = some i) : index pc = some i := by
  cases pc <;> first | exact h | cases h

theorem pointer_of_filled (h : filled pc = some ptr) : pointer pc = some ptr := by
  unfold filled at h
  split at h
  · cases h
  · exact h

theorem index_of_pointer (h : pointer pc = some ptr) : index pc = some ptr.idx := by
  have hindex : index pc = (pointer pc).map Ptr.idx := by
    cases pc <;> first | rfl | cases h
  rw [hindex, h]
  rfl

theorem filled_of_pending (h : pending pc = none) : filled pc = pointer pc := by
  rw [filled, h]
  rfl

theorem index_eq_pointer (h : pending pc = none) : index pc = (pointer pc).map Ptr.idx := by
  cases pc <;> first | rfl | cases h

theorem pending_of_index (h : index pc = none) : pending pc = none := by
  cases pc <;> first | rfl | cases h

theorem pointer_of_index (h : index pc = none) : pointer pc = none := by
  rw [index_eq_pointer (pending_of_index h)] at h
  exact Option.map_eq_none_iff.mp h

theorem pending_of_filled (h : filled pc = some ptr) : pending pc = none := by
  unfold filled at h
  split at h
  · cases h
  · rename_i hnone
    simpa using hnone

end Phases

section Steps
variable {s : Daemons} {d : Daemon} {r : Nat} {a : Action} {pc pc' : Pc}

theorem sameEntry_trans {f g k : CocallbackFunc} (h : SameEntry f g) (h' : SameEntry g k) :
    SameEntry f k := by
  rcases h with rfl | rfl
  · exact h'
  · rcases h' with rfl | rfl
    · exact .inr rfl
    · exact .inr (asDead_asDead f)

theorem sameEntry_provider {f g : CocallbackFunc} (h : SameEntry f g) :
    g.provider = f.provider := by
  rcases h with rfl | rfl <;> rfl

/-- A thread takes a step that keeps the table in its place, and all entries but the one that it
fills in. -/
structure Keeps (s : Daemons) (a : Action) (pc : Pc) (d : Daemon) (pc' : Pc) : Prop where
  base : d.base = s.shared.base
  death : d.providerDeath = s.shared.providerDeath
  tblLen : s.shared.tblLen ≤ d.tblLen
  entries : ∀ (i : Nat) f, s.shared.funcs[i]? = some f → pending pc ≠ some i →
    ∃ g, d.funcs[i]? = some g ∧ SameEntry f g
  length : s.shared.funcs.length ≤ d.funcs.length
  index : ∀ i, index pc' = some i →
    index pc = some i ∨ (i = s.shared.funcs.length ∧ i < d.funcs.length)
  pending : ∀ i, pending pc' = some i → pending pc = some i ∨ i = s.shared.funcs.length
  placed : ∀ i, pc' = .address i → i < d.tblLen
  live : ∀ ptr, pointer pc' = some ptr → ptr.base = d.base ∧ ptr.idx < d.tblLen
  stored : ∀ ptr, filled pc' = some ptr → Stored d a ptr
  lists : ∀ p, ∀ ccb ∈ (d.procTable p).callbacks, Linked d p ccb
  listed : ∀ ptr, Listed d ptr → Listed s.shared ptr ∨ filled pc = some ptr

theorem held_iff {d d' : Daemon} (h : d.providerDeath = d'.providerDeath) :
    d.Held a ↔ d'.Held a := by
  unfold Daemon.Held
  rw [h]

theorem listed_lt {ptr : Ptr} (h : HandlesOk s) (hl : Listed s.shared ptr) :
    ptr.idx < s.shared.funcs.length := by
  obtain ⟨p, ccb, hmem, l, hargs, hptr⟩ := hl
  obtain ⟨-, -, f, hf, -⟩ := (h.lists p ccb hmem).2 l hargs ptr hptr
  exact (List.getElem?_eq_some_iff.mp hf).1

theorem handlesOk_keeps (h : HandlesOk s) (hr : s.threads[r]? = some (a, pc))
    (hk : Keeps s a pc d pc') : HandlesOk ⟨d, s.threads.set r (a, pc')⟩ where
  death := by
    rw [hk.death, hk.base]
    exact h.death
  own := Nat.lt_of_lt_of_le h.own hk.length
  held q b c hq := by
    rw [held_iff hk.death]
    rcases getElem?_set_cases hq with ⟨-, heq⟩ | ⟨-, hq⟩
    · cases heq
      exact h.held r a pc hr
    · exact h.held q b c hq
  taken q b c i hq hi := by
    rcases getElem?_set_cases hq with ⟨-, heq⟩ | ⟨-, hq⟩
    · cases heq
      rcases hk.index i hi with hold | ⟨rfl, hlt⟩
      · have htaken := h.taken r a pc i hr hold
        exact ⟨htaken.1, Nat.lt_of_lt_of_le htaken.2 hk.length⟩
      · exact ⟨Nat.pos_iff_ne_zero.mp h.own, hlt⟩
    · have htaken := h.taken q b c i hq hi
      exact ⟨htaken.1, Nat.lt_of_lt_of_le htaken.2 hk.length⟩
  distinct q q' b b' c c' i hq hq' hi hi' := by
    -- The entry of another thread is not the one that this thread has, or takes now.
    have hother {k : Nat} {x : Action} {y : Pc} (hne : k ≠ r) (hx : s.threads[k]? = some (x, y))
        (hy : index y = some i) : index pc' ≠ some i := by
      intro hi
      rcases hk.index i hi with hold | ⟨rfl, -⟩
      · exact hne (h.distinct k r x a y pc i hx hr hy hold)
      · exact absurd (h.taken k x y _ hx hy).2 (Nat.lt_irrefl _)
    rcases getElem?_set_cases hq with ⟨rfl, heq⟩ | ⟨hne, hq⟩
    · cases heq
      rcases getElem?_set_cases hq' with ⟨rfl, -⟩ | ⟨hne', hq'⟩
      · rfl
      · exact absurd hi (hother hne' hq' hi')
    · rcases getElem?_set_cases hq' with ⟨-, heq⟩ | ⟨-, hq'⟩
      · cases heq
        exact absurd hi' (hother hne hq hi)
      · exact h.distinct q q' b b' c c' i hq hq' hi hi'
  placed q b i hq := by
    rcases getElem?_set_cases hq with ⟨-, heq⟩ | ⟨-, hq⟩
    · cases heq
      exact hk.placed i rfl
    · exact Nat.lt_of_lt_of_le (h.placed q b i hq) hk.tblLen
  live q b c ptr hq hptr := by
    rcases getElem?_set_cases hq with ⟨-, heq⟩ | ⟨-, hq⟩
    · cases heq
      exact hk.live ptr hptr
    · have hlive := h.live q b c ptr hq hptr
      exact ⟨hlive.1.trans hk.base.symm, Nat.lt_of_lt_of_le hlive.2 hk.tblLen⟩
  stored q b c ptr hq hptr := by
    rcases getElem?_set_cases hq with ⟨-, heq⟩ | ⟨hne, hq⟩
    · cases heq
      exact hk.stored ptr hptr
    · obtain ⟨pid, scb, flags, newBase, f, rfl, hf, hsame⟩ := h.stored q b c ptr hq hptr
      have hidx := index_of_pointer (pointer_of_filled hptr)
      have hpending : pending pc ≠ some ptr.idx := fun hp =>
        hne (h.distinct q r _ a c pc ptr.idx hq hr hidx (index_of_pending hp))
      obtain ⟨g, hg, hsame'⟩ := hk.entries ptr.idx f hf hpending
      exact ⟨pid, scb, flags, newBase, g, rfl, hg, sameEntry_trans hsame hsame'⟩
  lists := hk.lists
  unlisted q b c i hq hi ptr hlisted := by
    rcases getElem?_set_cases hq with ⟨-, heq⟩ | ⟨hne, hq⟩
    · cases heq
      rcases hk.pending i hi with hold | rfl
      · rcases hk.listed ptr hlisted with hlisted | hfilled
        · exact h.unlisted r a pc i hr hold ptr hlisted
        · exact absurd hold (by simp [pending_of_filled hfilled])
      · refine Nat.ne_of_lt ?_
        rcases hk.listed ptr hlisted with hlisted | hfilled
        · exact listed_lt h hlisted
        · exact (h.taken r a pc _ hr (index_of_pointer (pointer_of_filled hfilled))).2
    · rcases hk.listed ptr hlisted with hlisted | hfilled
      · exact h.unlisted q b c i hq hi ptr hlisted
      · rintro rfl
        have hidx := index_of_pointer (pointer_of_filled hfilled)
        exact hne (h.distinct q r b a c pc ptr.idx hq hr (index_of_pending hi) hidx)

/-- Callbacks stay linked while the table keeps its place and its entries. -/
theorem linked_mono {p : Nat} {ccb : Cocallback} {d d' : Daemon} (h : Linked d p ccb)
    (hbase : d'.base = d.base) (hdeath : d'.providerDeath = d.providerDeath)
    (hlen : d.tblLen ≤ d'.tblLen)
    (hentries : ∀ l, ccb.args = .provided l → ∀ ptr ∈ l, ∀ f, d.funcs[ptr.idx]? = some f →
      ∃ g, d'.funcs[ptr.idx]? = some g ∧ SameEntry f g) : Linked d' p ccb := by
  refine ⟨fun hfunc => h.1 (hfunc.trans hdeath), fun l hl ptr hptr => ?_⟩
  obtain ⟨hb, hlt, f, hf, hprovider⟩ := h.2 l hl ptr hptr
  obtain ⟨g, hg, hsame⟩ := hentries l hl ptr hptr f hf
  exact ⟨hb.trans hbase.symm, Nat.lt_of_lt_of_le hlt hlen, g, hg,
    (sameEntry_provider hsame).trans hprovider⟩

/-- What a step puts into a queue is linked. -/
theorem linked_queued {p : Nat} {ccb : Cocallback} (h : HandlesOk s)
    (hr : s.threads[r]? = some (a, pc)) (hp : a.event = p)
    (hq : QueuedBy s.shared a p pc ccb) :
    Linked s.shared p ccb ∧ ∀ l, ccb.args = .provided l → ∀ ptr ∈ l,
      Listed s.shared ptr ∨ filled pc = some ptr := by
  cases hq with
  | old ccb hmem =>
    exact ⟨h.lists p ccb hmem, fun l hl ptr hptr => .inl ⟨p, ccb, hmem, l, hl, hptr⟩⟩
  | record =>
    have hempty : ∀ l, CocallbackArgs.provided [] = .provided l → l = [] := by
      rintro l ⟨⟩
      rfl
    refine ⟨⟨fun _ => ⟨[], rfl⟩, fun l hl ptr hptr => ?_⟩, fun l hl ptr hptr => ?_⟩
    · simp [hempty l hl] at hptr
    · simp [hempty l hl] at hptr
  | client pid tag coevent func len data ha =>
    subst ha
    have hforeign : func ≠ s.shared.providerDeath := h.held r _ pc hr rfl
    exact ⟨⟨fun hfunc => absurd hfunc hforeign, fun l hl => by cases hl⟩, fun l hl => by cases hl⟩
  | link func ccb hpc hmem hfunc =>
    subst hpc
    obtain ⟨hprovided, hlist⟩ := h.lists p ccb hmem
    obtain ⟨l, hl⟩ := hprovided hfunc
    have hargs : (linked s.shared ccb func).args = .provided (func :: l) := by
      rw [linked, hl]
      rfl
    have hnew : Provides s.shared p func := by
      obtain ⟨hbase, hlt⟩ := h.live r a _ func hr rfl
      obtain ⟨pid, scb, flags, newBase, f, rfl, hf, hsame⟩ := h.stored r a _ func hr rfl
      exact ⟨hbase, hlt, f, hf, (sameEntry_provider hsame).trans hp⟩
    refine ⟨⟨fun _ => ⟨func :: l, hargs⟩, fun l' hl' ptr hptr => ?_⟩, fun l' hl' ptr hptr => ?_⟩
    · rw [hargs] at hl'
      cases hl'
      rcases List.mem_cons.mp hptr with rfl | hptr
      · exact hnew
      · exact hlist l hl ptr hptr
    · rw [hargs] at hl'
      cases hl'
      rcases List.mem_cons.mp hptr with rfl | hptr
      · exact .inr rfl
      · exact .inl ⟨p, ccb, hmem, l, hl, hptr⟩

/-- A step that works on one event. -/
theorem keeps_event {p : Nat} {e : Coevent} {monitored : Nat → Bool} {serial : Nat}
    {added : Nat → List Nat} (h : HandlesOk s) (hr : s.threads[r]? = some (a, pc))
    (hp : a.event = p) (hqueue : ∀ ccb ∈ e.callbacks, QueuedBy s.shared a p pc ccb)
    (hpc : pending pc = none) (hpc' : pending pc' = none) (hpointer : pointer pc' = pointer pc) :
    Keeps s a pc { s.shared with
      procTable := Function.update s.shared.procTable p e
      monitored := monitored
      serial := serial
      added := added } pc' where
  base := rfl
  death := rfl
  tblLen := Nat.le_refl _
  entries i f hf _ := ⟨f, hf, .inl rfl⟩
  length := Nat.le_refl _
  index i hi := by
    rw [index_eq_pointer hpc', hpointer, ← index_eq_pointer hpc] at hi
    exact .inl hi
  pending i hi := by
    rw [hpc'] at hi
    cases hi
  placed i hi := by
    rw [hi] at hpc'
    cases hpc'
  live ptr hptr := by
    rw [hpointer] at hptr
    exact h.live r a pc ptr hr hptr
  stored ptr hptr := by
    rw [filled_of_pending hpc', hpointer, ← filled_of_pending hpc] at hptr
    exact h.stored r a pc ptr hr hptr
  lists := (Function.forall_update_iff s.shared.procTable fun q e =>
    ∀ ccb ∈ e.callbacks, Linked s.shared q ccb).mpr
      ⟨fun ccb hmem => (linked_queued h hr hp (hqueue ccb hmem)).1, fun q _ => h.lists q⟩
  listed ptr hl := by
    obtain ⟨q, ccb, hmem, l, hargs, hptr⟩ := hl
    simp only [Function.update_apply] at hmem
    split at hmem
    · exact (linked_queued h hr hp (hqueue ccb hmem)).2 l hargs ptr hptr
    · exact .inl ⟨q, ccb, hmem, l, hargs, hptr⟩

/-- A step that leaves the queues alone and keeps all entries. -/
theorem keeps_table {d : Daemon} (h : HandlesOk s) (hbase : d.base = s.shared.base)
    (hdeath : d.providerDeath = s.shared.providerDeath) (hlen : s.shared.tblLen ≤ d.tblLen)
    (hevents : d.procTable = s.shared.procTable)
    (hfuncs : s.shared.funcs.length ≤ d.funcs.length)
    (hentries : ∀ (i : Nat) f, s.shared.funcs[i]? = some f →
      ∃ g, d.funcs[i]? = some g ∧ SameEntry f g)
    (hindex : ∀ i, index pc' = some i →
      index pc = some i ∨ (i = s.shared.funcs.length ∧ i < d.funcs.length))
    (hpending : ∀ i, pending pc' = some i → pending pc = some i ∨ i = s.shared.funcs.length)
    (hplaced : ∀ i, pc' = .address i → i < d.tblLen)
    (hpointer : ∀ ptr, pointer pc' = some ptr → ptr.base = d.base ∧ ptr.idx < d.tblLen)
    (hfilled : filled pc' = none) : Keeps s a pc d pc' where
  base := hbase
  death := hdeath
  tblLen := hlen
  entries i f hf _ := hentries i f hf
  length := hfuncs
  index := hindex
  pending := hpending
  placed := hplaced
  live := hpointer
  stored ptr hptr := by
    rw [hfilled] at hptr
    cases hptr
  lists p ccb hmem := by
    rw [hevents] at hmem
    exact linked_mono (h.lists p ccb hmem) hbase hdeath hlen
      fun _ _ ptr _ f hf => hentries ptr.idx f hf
  listed ptr hl := by
    unfold Listed at hl ⊢
    rw [hevents] at hl
    exact .inl hl

/-- The fields of a function are stored in the entry that the thread has taken. -/
theorem keeps_fill {func : Ptr} {pid newBase : Nat} {scb : Scb} {flags : Flags}
    (h : HandlesOk s) (hr : s.threads[r]? = some (a, .fill func))
    (ha : a = .request pid (.ccbRegister scb flags newBase)) :
    Keeps s a (.fill func) (s.shared.fillFunc func ⟨scb, pid, flags⟩)
      (.lock (.provide func)) := by
  obtain ⟨hbase, hlt⟩ := h.live r a _ func hr rfl
  have hin := (h.taken r a _ func.idx hr rfl).2
  have heq : s.shared.fillFunc func ⟨scb, pid, flags⟩ =
      { s.shared with funcs := s.shared.funcs.set func.idx ⟨scb, pid, flags⟩ } := if_pos hbase
  have hother {i : Nat} (hne : func.idx ≠ i) :
      (s.shared.funcs.set func.idx ⟨scb, pid, flags⟩)[i]? = s.shared.funcs[i]? :=
    List.getElem?_set_ne hne
  rw [heq]
  constructor
  · rfl
  · rfl
  · exact Nat.le_refl _
  · intro i f hf hne
    refine ⟨f, ?_, .inl rfl⟩
    rw [hother fun hi => hne (congrArg some hi)]
    exact hf
  · rw [List.length_set]
  · exact fun i hi => .inl hi
  · intro i hi
    cases hi
  · intro i hi
    cases hi
  · intro ptr hptr
    cases hptr
    exact ⟨hbase, hlt⟩
  · intro ptr hptr
    cases hptr
    refine ⟨pid, scb, flags, newBase, ⟨scb, pid, flags⟩, ha, ?_, .inl rfl⟩
    rw [List.getElem?_set_self hin]
  · intro p ccb hmem
    -- No list has an entry that is not filled in.
    refine linked_mono (h.lists p ccb hmem) rfl rfl (Nat.le_refl _) fun l hl ptr hptr f hf => ?_
    have hne := h.unlisted r a _ func.idx hr rfl ptr ⟨p, ccb, hmem, l, hl, hptr⟩
    exact ⟨f, (hother hne.symm).trans hf, .inl rfl⟩
  · exact fun ptr hl => .inl hl

/-- `execute_cocallback` sets `FLAG_DEAD` in some entries. -/
theorem executeCocallback_entries (d : Daemon) (ccb : Cocallback) :
    ∃ funcs memory, (d.executeCocallback ccb).1 = { d with funcs := funcs, memory := memory } ∧
      funcs.length = d.funcs.length ∧
      ∀ (i : Nat) f, d.funcs[i]? = some f → ∃ g, funcs[i]? = some g ∧ SameEntry f g := by
  simp only [Daemon.executeCocallback]
  split
  · obtain ⟨funcs, memory, hfold, hfuncs⟩ := foldl_flagFunc (d.providedFuncs ccb.args) d
    refine ⟨funcs, memory, hfold, ?_, fun i f hf => ?_⟩
    · have hnone (i : Nat) : funcs.length ≤ i ↔ d.funcs.length ≤ i := by
        rw [← List.getElem?_eq_none_iff, hfuncs i, Option.map_eq_none_iff,
          List.getElem?_eq_none_iff]
      exact Nat.le_antisymm ((hnone _).mpr (Nat.le_refl _)) ((hnone _).mp (Nat.le_refl _))
    · refine ⟨_, by rw [hfuncs i, hf, Option.map_some], ?_⟩
      split
      · exact .inr rfl
      · exact .inl rfl
  · split
    · exact ⟨d.funcs, d.memory, rfl, rfl, fun i f hf => ⟨f, hf, .inl rfl⟩⟩
    · split <;> exact ⟨d.funcs, d.memory, rfl, rfl, fun i f hf => ⟨f, hf, .inl rfl⟩⟩

/-- A step to a phase that has nothing to do with an entry. -/
theorem keeps_away {d : Daemon} (h : HandlesOk s) (hindex : index pc' = none)
    (hbase : d.base = s.shared.base) (hdeath : d.providerDeath = s.shared.providerDeath)
    (hlen : d.tblLen = s.shared.tblLen) (hevents : d.procTable = s.shared.procTable)
    (hfuncs : d.funcs.length = s.shared.funcs.length)
    (hentries : ∀ (i : Nat) f, s.shared.funcs[i]? = some f →
      ∃ g, d.funcs[i]? = some g ∧ SameEntry f g) : Keeps s a pc d pc' := by
  have hpointer := pointer_of_index hindex
  have hpending := pending_of_index hindex
  refine keeps_table h hbase hdeath (Nat.le_of_eq hlen.symm) hevents (Nat.le_of_eq hfuncs.symm)
    hentries ?_ ?_ ?_ ?_ ?_
  · simp [hindex]
  · simp [hpending]
  · rintro i rfl
    cases hindex
  · simp [hpointer]
  · rw [filled_of_pending hpending, hpointer]

/-- A thread that has taken an entry goes on to the next phase, and leaves the entry alone. -/
theorem keeps_pending {d : Daemon} {i : Nat} (h : HandlesOk s) (hpc : pending pc = some i)
    (hpc' : pending pc' = some i) (hbase : d.base = s.shared.base)
    (hdeath : d.providerDeath = s.shared.providerDeath) (hlen : s.shared.tblLen ≤ d.tblLen)
    (hevents : d.procTable = s.shared.procTable) (hfuncs : d.funcs = s.shared.funcs)
    (hplaced : pc' = .address i → i < d.tblLen)
    (hpointer : ∀ ptr, pointer pc' = some ptr → ptr.base = d.base ∧ ptr.idx < d.tblLen) :
    Keeps s a pc d pc' := by
  have hindex := index_of_pending hpc
  have hindex' := index_of_pending hpc'
  refine keeps_table h hbase hdeath hlen hevents (by rw [hfuncs]) ?_ ?_ ?_ ?_ hpointer ?_
  · rw [hfuncs]
    exact fun j f hf => ⟨f, hf, .inl rfl⟩
  · intro j hj
    rw [hindex', ← hindex] at hj
    exact .inl hj
  · intro j hj
    rw [hpc', ← hpc] at hj
    exact .inl hj
  · rintro j rfl
    cases hpc'
    exact hplaced rfl
  · rw [filled, hpc']
    rfl

/-- Every move of a thread keeps the table, if it stays in its place. -/
theorem keeps_move {d : Daemon} (h : HandlesOk s) (hr : s.threads[r]? = some (a, pc))
    (hok : InPlace s (.advance r)) (hm : Move s.shared a a.event pc d pc') :
    Keeps s a pc d pc' := by
  have hsame (i : Nat) (f : CocallbackFunc) (hf : s.shared.funcs[i]? = some f) :
      ∃ g, s.shared.funcs[i]? = some g ∧ SameEntry f g := ⟨f, hf, .inl rfl⟩
  cases hm with
  | enter alive monitored memory chains pc' hindex =>
    exact keeps_away h hindex rfl rfl rfl rfl rfl hsame
  | event pc pc' e monitored serial added hword hqueue hpc hpc' hpointer =>
    exact keeps_event h hr rfl hqueue hpc hpc' hpointer
  | gone pc fate => exact keeps_away h rfl rfl rfl rfl rfl rfl hsame
  | fetchAdd =>
    refine keeps_table h rfl rfl (Nat.le_refl _) rfl (by simp) ?_ ?_ ?_ ?_ ?_ rfl
    · exact fun i f hf => ⟨f, entry_append hf, .inl rfl⟩
    · rintro i ⟨⟩
      exact .inr ⟨rfl, by simp⟩
    · rintro i ⟨⟩
      exact .inr rfl
    · rintro i ⟨⟩
    · rintro ptr ⟨⟩
  | full i =>
    refine keeps_pending h rfl rfl rfl rfl (Nat.le_refl _) rfl rfl ?_ ?_
    · rintro ⟨⟩
    · rintro ptr ⟨⟩
  | fits i hlt =>
    refine keeps_pending h rfl rfl rfl rfl (Nat.le_refl _) rfl rfl (fun _ => hlt) ?_
    rintro ptr ⟨⟩
  | extended i hlt =>
    -- The entry was taken before, and another thread has extended the table beyond it.
    have hin := (h.taken r a _ i hr rfl).2
    refine keeps_pending h rfl rfl rfl rfl (Nat.le_refl _) rfl rfl (fun _ => ?_) ?_
    · exact Nat.lt_trans hin hlt
    · rintro ptr ⟨⟩
  | extend i pid newBase scb flags ha hge =>
    subst ha
    obtain ⟨hbase, hle⟩ := hok pid scb flags newBase i hr hge
    have hin := (h.taken r _ _ i hr rfl).2
    refine keeps_pending h rfl rfl hbase rfl (Nat.le_add_right ..) rfl rfl (fun _ => ?_) ?_
    · exact Nat.lt_of_lt_of_le hin hle
    · rintro ptr ⟨⟩
  | address i hlt =>
    refine keeps_pending h rfl rfl rfl rfl (Nat.le_refl _) rfl rfl ?_ ?_
    · rintro ⟨⟩
    · rintro ptr ⟨⟩
      exact ⟨rfl, hlt⟩
  | fill func pid newBase scb flags ha => exact keeps_fill h hr ha
  | execute ccb handled fate pc' hindex =>
    obtain ⟨funcs, memory, heq, hlen, hentries⟩ := executeCocallback_entries s.shared ccb
    rw [heq]
    exact keeps_away h hindex rfl rfl rfl rfl hlen hentries

theorem handlesOk_arrive {a : Action} (h : HandlesOk s) (hheld : s.shared.Held a) :
    HandlesOk { s with threads := s.threads ++ [(a, .entry)] } where
  death := h.death
  own := h.own
  held q b c hq := by
    rcases getElem?_concat_cases hq with hq | heq
    · exact h.held q b c hq
    · cases heq
      exact hheld
  taken q b c i hq hi := by
    rcases getElem?_concat_cases hq with hq | heq
    · exact h.taken q b c i hq hi
    · cases heq
      cases hi
  distinct q q' b b' c c' i hq hq' hi hi' := by
    rcases getElem?_concat_cases hq with hq | heq
    · rcases getElem?_concat_cases hq' with hq' | heq
      · exact h.distinct q q' b b' c c' i hq hq' hi hi'
      · cases heq
        cases hi'
    · cases heq
      cases hi
  placed q b i hq := by
    rcases getElem?_concat_cases hq with hq | heq
    · exact h.placed q b i hq
    · cases heq
  live q b c ptr hq hptr := by
    rcases getElem?_concat_cases hq with hq | heq
    · exact h.live q b c ptr hq hptr
    · cases heq
      cases hptr
  stored q b c ptr hq hptr := by
    rcases getElem?_concat_cases hq with hq | heq
    · exact h.stored q b c ptr hq hptr
    · cases heq
      cases hptr
  lists := h.lists
  unlisted q b c i hq hi := by
    rcases getElem?_concat_cases hq with hq | heq
    · exact h.unlisted q b c i hq hi
    · cases heq
      cases hi

end Steps

section Runs
variable {mypid base : Nat} {memory : Ptr → CocallbackFunc} {chains : Ptr → List Ptr}
  {s : Daemons}

theorem handlesOk_init : HandlesOk ⟨initDaemon mypid base memory chains, []⟩ := by
  constructor <;> simp [initDaemon]

theorem handlesOk_reach
    (h : Reach requestStep InPlace ⟨initDaemon mypid base memory chains, []⟩ s) :
    HandlesOk s := by
  induction h with
  | init => exact handlesOk_init
  | next act _ hok hs ih =>
    rcases requestStep_cases hs with
      ⟨a, -, hheld, rfl⟩ | ⟨r, a, pc, shared, pc', rfl, hr, hm, rfl⟩
    · exact handlesOk_arrive ih hheld
    · exact handlesOk_keeps ih hr (keeps_move ih hr hok hm)

/-- `FLAG_DEAD` that is set through a list is seen through a pointer with the same entry. -/
theorem meets_flagDeadProvider {d : Daemon} {ccb : Cocallback} {l : List Ptr} {ptr : Ptr}
    {f : CocallbackFunc} (hargs : ccb.args = .provided l) (hptr : ptr ∈ l)
    (hbase : ptr.base = d.base) (hf : d.funcs[ptr.idx]? = some f) :
    Meets ((d.flagDeadProvider ccb).deref ptr).flags flagDead := by
  obtain ⟨funcs, memory, hfold, hfuncs⟩ := foldl_flagFunc (d.providedFuncs ccb.args) d
  have hin : (⟨d.base, ptr.idx⟩ : Ptr) ∈ d.providedFuncs ccb.args := by
    rw [hargs, ← hbase]
    exact hptr
  have hdead : funcs[ptr.idx]? = some (asDead f) := by
    rw [hfuncs, hf, Option.map_some, if_pos hin]
  rw [Daemon.flagDeadProvider, hfold]
  have hderef : Daemon.deref { d with funcs := funcs, memory := memory } ptr = asDead f := by
    simp [Daemon.deref, hbase, hdead]
  rw [hderef, asDead, meets_or_iff]
  exact .inr (by decide)

/-- A callback whose function is flagged is not called. -/
theorem not_called_of_dead {d : Daemon} {ccb : Cocallback}
    (h : Meets (d.deref ccb.func).flags flagDead) :
    (d.executeCocallback ccb).2 = .flagged ∨ (d.executeCocallback ccb).2 = .skipped := by
  simp only [Daemon.executeCocallback]
  rw [if_pos h]
  split
  · exact .inl rfl
  · exact .inr rfl

/-- The pointer leads to an entry of the table that was registered as `f`. -/
def Denotes (d : Daemon) (ptr : Ptr) (f : CocallbackFunc) : Prop :=
  ptr.base = d.base ∧ ptr.idx < d.tblLen ∧ SameEntry f (d.deref ptr)

/-- In every run in which the table is extended in its place, with a counter that is at most one
extension ahead: the pointers that were returned denote the entries that were registered, no two
of them the same one. So do the pointers in the lists of providers. What is flagged through these
is seen through those, and no callback that is queued with them is called any more. Every index
that `allocate_ccb_func` uses is within the table. -/
theorem handles_live
    (h : Reach requestStep InPlace ⟨initDaemon mypid base memory chains, []⟩ s) :
    (∀ (r : Nat) pid scb flags newBase ptr, s.threads[r]? =
        some (.request pid (.ccbRegister scb flags newBase), .replied (.func ptr)) →
      Denotes s.shared ptr ⟨scb, pid, flags⟩ ∧
      (∀ (r' : Nat) a ptr', s.threads[r']? = some (a, .replied (.func ptr')) →
        ptr'.idx = ptr.idx → r' = r) ∧
      ∀ p, ∀ ccb ∈ (s.shared.procTable p).callbacks, ∀ l, ccb.args = .provided l →
        ∀ ptr' ∈ l, ptr'.idx = ptr.idx →
          ptr' = ptr ∧ Meets ((s.shared.flagDeadProvider ccb).deref ptr).flags flagDead ∧
          ∀ queued : Cocallback, queued.func = ptr →
            ((s.shared.flagDeadProvider ccb).executeCocallback queued).2 = .flagged ∨
            ((s.shared.flagDeadProvider ccb).executeCocallback queued).2 = .skipped) ∧
    (∀ p, ∀ ccb ∈ (s.shared.procTable p).callbacks, ∀ l, ccb.args = .provided l →
      ∀ ptr ∈ l, Provides s.shared p ptr) ∧
    ∀ (r : Nat) a i, s.threads[r]? = some (a, .address i) → i < s.shared.tblLen := by
  have hinv := handlesOk_reach h
  refine ⟨fun r pid scb flags newBase ptr hr => ?_, fun p ccb hmem => (hinv.lists p ccb hmem).2,
    hinv.placed⟩
  obtain ⟨hbase, hlt⟩ := hinv.live r _ _ ptr hr rfl
  obtain ⟨_, _, _, _, f, heq, hf, hsame⟩ := hinv.stored r _ _ ptr hr rfl
  cases heq
  have hderef : s.shared.deref ptr = f := by
    simp [Daemon.deref, hbase, hf]
  refine ⟨⟨hbase, hlt, ?_⟩, fun r' a ptr' hr' hidx => ?_,
    fun p ccb hmem l hl ptr' hptr' hidx => ?_⟩
  · rw [hderef]
    exact hsame
  · exact hinv.distinct r' r a _ _ _ ptr.idx hr' hr (congrArg some hidx) rfl
  · have hbase' := ((hinv.lists p ccb hmem).2 l hl ptr' hptr').1
    obtain rfl : ptr' = ptr := by
      cases ptr'
      cases ptr
      simp_all
    have hdead := meets_flagDeadProvider hl hptr' hbase hf
    exact ⟨rfl, hdead, fun queued hq => not_called_of_dead (hq ▸ hdead)⟩

end Runs

/-- The condition as a test. -/
def checkInPlace (s : Daemons) : PoolAct Action → Bool
  | .arrive _  => true
  | .advance r =>
    match s.threads[r]? with
    | some (.request _ (.ccbRegister _ _ newBase), .extend _) =>
      decide (s.shared.tblLen ≤ s.shared.funcs.length →
        newBase = s.shared.base ∧ s.shared.funcs.length ≤ s.shared.tblLen + baseTblLen)
    | _ => true

theorem inPlace_of_check (s : Daemons) (act : PoolAct Action) (h : checkInPlace s act = true) :
    InPlace s act := by
  cases act with
  | arrive a => trivial
  | advance r =>
    intro pid scb flags newBase i hr
    simp only [checkInPlace, hr, decide_eq_true_eq] at h
    exact h

/-- Process 2 registers two functions. -/
def registerTwice : List (PoolAct Action) :=
  PoolAct.arrive (register 2) :: List.replicate 16 (PoolAct.advance 0) ++
  PoolAct.arrive (register 2) :: List.replicate 16 (PoolAct.advance 1)

/-- Both pointers denote what was registered. -/
theorem handles_live_two :
    ∃ s, Reach requestStep InPlace ⟨freshDaemon, []⟩ s ∧
      s.threads = [(register 2, .replied (.func ⟨0, 1⟩)), (register 2, .replied (.func ⟨0, 2⟩))] ∧
      Denotes s.shared ⟨0, 1⟩ ⟨⟨true, true, some 2⟩, 2, flagSlocall⟩ ∧
      Denotes s.shared ⟨0, 2⟩ ⟨⟨true, true, some 2⟩, 2, flagSlocall⟩ := by
  obtain ⟨s, hrun⟩ : ∃ s, runFrom requestStep ⟨freshDaemon, []⟩ registerTwice = some s :=
    Option.isSome_iff_exists.mp (by decide)
  have hreach : Reach requestStep InPlace ⟨freshDaemon, []⟩ s :=
    reach_of_checkAll inPlace_of_check _ _ _ (by decide) hrun
  have hthreads : s.threads =
      [(register 2, .replied (.func ⟨0, 1⟩)), (register 2, .replied (.func ⟨0, 2⟩))] :=
    eq_of_map_runFrom Pool.threads hrun (by decide)
  have hlive := (handles_live hreach).1
  refine ⟨s, hreach, hthreads, (hlive 0 _ _ _ 0 _ ?_).1, (hlive 1 _ _ _ 0 _ ?_).1⟩
  · rw [hthreads]
    rfl
  · rw [hthreads]
    rfl

/-! ### A table that moves -/

/-- Process 2 registers a function, and the table goes to block 1 when it is extended. -/
def registerMoving : Action := .request 2 (.ccbRegister ⟨true, true, some 2⟩ flagSlocall 1)

/-- coeventd after `k` such requests, with its table in block 0. -/
structure Registered (d : Daemon) (k : Nat) : Prop where
  serving : d.fate = .serving
  client : d.alive 2 = true ∧ 2 ≠ d.mypid
  base : d.base = 0
  tblLen : d.tblLen = baseTblLen
  count : d.funcs.length = k + 1
  free : (d.procTable 2).inProgress = 0
  first : RecordFirst d 2

/-- Where the table is after `k` requests and one more. -/
def blockAfter (k : Nat) : Nat := if k + 1 < baseTblLen then 0 else 1

/-- One more request, which runs alone. -/
theorem registered_next {d : Daemon} {k : Nat} (h : Registered d k) (hk : k < baseTblLen) :
    ∃ d', Alone Daemon.advance registerMoving (d, .entry)
        (d', .replied (.func ⟨blockAfter k, k + 1⟩)) ∧ d'.base = blockAfter k ∧
      (k + 1 < baseTblLen → Registered d' (k + 1)) := by
  obtain ⟨ccb, rest, hqueue⟩ := withRecord_queue (openEvent d 2) 2
  have hfirst := (recordFirst_iff hqueue).mpr h.first
  have hroom : d.funcs.length < d.tblLen + baseTblLen := by
    rw [h.count, h.tblLen]
    omega
  have hrun : Alone Daemon.advance registerMoving (d, .entry) _ :=
    alone_registered h.serving h.client rfl rfl (.inl h.free) hroom hqueue hfirst
  obtain ⟨hfate, hfuncs, hlen, hdeath, hword⟩ := monitored_kept h.serving (.inl h.free)
  obtain ⟨hbase, halive⟩ : (withRecord (openEvent d 2) 2).base = 0 ∧
      (withRecord (openEvent d 2) 2).alive 2 = true ∧
      2 ≠ (withRecord (openEvent d 2) 2).mypid := by
    obtain ⟨table, m, n, added, heq⟩ := monitor_kept d 2
    rw [heq]
    exact ⟨h.base, h.client⟩
  generalize withRecord (openEvent d 2) 2 = t at *
  have hcount : t.funcs.length = k + 1 := by rw [hfuncs, h.count]
  rw [h.count] at hrun
  rw [h.tblLen] at hlen
  have hafter : baseAfter t 1 = blockAfter k := by
    rw [baseAfter, hlen, hcount, hbase, blockAfter]
    split <;> split <;> omega
  rw [hafter] at hrun
  refine ⟨_, hrun, hafter, fun hlt => ?_⟩
  have hnotFull : ¬t.tblLen ≤ t.funcs.length := by omega
  constructor
  · exact hfate
  · exact halive
  · rw [addFunc, hafter, blockAfter, if_pos hlt]
  · rw [addFunc, if_neg hnotFull, hlen]
  · simp [addFunc, hcount]
  · simp [addFunc, Daemon.setEvent, hword]
  · refine .inr (.inr fun c hc => ?_)
    simp [addFunc, Daemon.setEvent] at hc
    rw [← hc]
    exact hfirst.trans hdeath.symm

/-- A request arrives and runs alone. -/
theorem reach_request {x : Daemons} {d d' : Daemon} {threads : List (Action × Pc)} {a : Action}
    {pc : Pc} (h : Reach requestStep anyAct x ⟨d, threads⟩)
    (hrun : Alone Daemon.advance a (d, .entry) (d', pc)) (hheld : d.Held a) :
    Reach requestStep anyAct x ⟨d', threads ++ [(a, pc)]⟩ := by
  have hadvance (s : Daemons) (r : Nat) :
      requestStep s (.advance r) = poolStep .entry Daemon.advance s (.advance r) := rfl
  have harrive : Reach requestStep anyAct x ⟨d, threads ++ [(a, .entry)]⟩ :=
    .next (.arrive a) h trivial (if_pos hheld)
  exact Alone.reach hadvance hrun harrive

/-- The requests one after another. The first one has got entry 1 of block 0. -/
theorem registered_reach {k : Nat} (hk : k + 1 < baseTblLen) :
    ∃ d threads, Reach requestStep anyAct ⟨freshDaemon, []⟩ ⟨d, threads⟩ ∧
      Registered d (k + 1) ∧ threads[0]? = some (registerMoving, .replied (.func ⟨0, 1⟩)) := by
  induction k with
  | zero =>
    have hfresh : Registered freshDaemon 0 :=
      ⟨rfl, by decide, rfl, rfl, rfl, rfl, .inr (.inl (by decide))⟩
    obtain ⟨d, hrun, -, hnext⟩ := registered_next hfresh (by decide)
    exact ⟨d, _, reach_request .init hrun trivial, hnext (by decide), rfl⟩
  | succ k ih =>
    obtain ⟨d, threads, hreach, hreg, hzero⟩ := ih (by omega)
    obtain ⟨d', hrun, -, hnext⟩ := registered_next hreg (by omega)
    refine ⟨d', _, reach_request hreach hrun trivial, hnext (by omega), ?_⟩
    rw [List.getElem?_append_left (List.getElem?_eq_some_iff.mp hzero).1]
    exact hzero

/-- The request after 4095 others finds the table full and moves it to block 1. The first client
still has a pointer to block 0. -/
theorem handle_left_behind :
    ∃ s, Reach requestStep anyAct ⟨freshDaemon, []⟩ s ∧
      s.threads[0]? = some (registerMoving, .replied (.func ⟨0, 1⟩)) ∧ s.shared.base = 1 ∧
      ¬Denotes s.shared ⟨0, 1⟩ ⟨⟨true, true, some 2⟩, 2, flagSlocall⟩ := by
  obtain ⟨d, threads, hreach, hreg, hzero⟩ := registered_reach (k := 4094) (by decide)
  obtain ⟨d', hrun, hbase, -⟩ := registered_next hreg (by decide)
  have hone : d'.base = 1 := hbase
  refine ⟨_, reach_request hreach hrun trivial, ?_, hone, fun h => ?_⟩
  · show (threads ++ _)[0]? = _
    rw [List.getElem?_append_left (List.getElem?_eq_some_iff.mp hzero).1]
    exact hzero
  · have hblock : 0 = d'.base := h.1
    omega

end Comsg.Proofs.Coeventd
