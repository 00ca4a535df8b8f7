import Comsg.Ipcd.Coopen
import Comsg.Lib.Threads

/-!
# `Comsg.Proofs.Ipcd.Coopen`: the entries that concurrent opens get

No two requests get the same index, since it comes from a fetch-and-add. The number of indices is
another matter: a request that has passed the test is not counted before its last step. When
`ncoports` and the requests in between are less than `max_coports` at each test that is passed
(`RoomAtTest`), every index is within the table, and no request is refused before the table is
full (`open_within_table`). At the boundary two requests can pass the test one after the other
(`open_behind_table`).
-/

set_option autoImplicit false

namespace Comsg.Proofs.Ipcd

open Comsg.Lib
open Comsg.Ipcd

/-- The request has passed the test and is not counted. -/
def inFlight : OpenPhase → Bool
  | .tested | .indexed _ => true
  | _                    => false

/-- The request has an index and is not counted. -/
def isIndexed : OpenPhase → Bool
  | .indexed _ => true
  | _          => false

/-- The request was answered with an entry. -/
def isOpened : OpenPhase → Bool
  | .opened _ => true
  | _         => false

/-- Request `r` has the entry `i`. -/
def HasEntry (s : OpenState) (r i : Nat) : Prop :=
  s.requests[r]? = some (.indexed i) ∨ s.requests[r]? = some (.opened i)

/-- A test is passed only while the coports and the requests in flight leave room. -/
def RoomAtTest (s : OpenState) : OpenAct → Prop
  | .canAllocate _ => s.ncoports ≠ maxCoports →
    s.ncoports + s.requests.countP inFlight < maxCoports
  | _ => True

/-- The invariant of the counters. -/
structure CountersOk (s : OpenState) : Prop where
  room : s.ncoports + s.requests.countP inFlight ≤ maxCoports
  next : s.nextCoport = s.ncoports + s.requests.countP isIndexed
  opened : s.requests.countP isOpened = s.ncoports
  refused : ∀ r : Nat, s.requests[r]? = some .refused → s.ncoports = maxCoports

/-- The indices that were taken are distinct. -/
structure IndicesOk (s : OpenState) : Prop where
  taken : ∀ r i, HasEntry s r i → i < s.nextCoport
  distinct : ∀ r r' i, HasEntry s r i → HasEntry s r' i → r = r'

/-- What a step can do. -/
theorem openStep_cases {s s' : OpenState} {a : OpenAct} (h : openStep s a = some s') :
    (a = .arrive ∧ s' = { s with requests := s.requests ++ [.arrived] }) ∨
    (∃ r, a = .canAllocate r ∧ s.requests[r]? = some .arrived ∧ s.ncoports = maxCoports ∧
      s' = { s with requests := s.requests.set r .refused }) ∨
    (∃ r, a = .canAllocate r ∧ s.requests[r]? = some .arrived ∧ s.ncoports ≠ maxCoports ∧
      s' = { s with requests := s.requests.set r .tested }) ∨
    (∃ r, a = .takeIndex r ∧ s.requests[r]? = some .tested ∧
      s' = { s with
        nextCoport := s.nextCoport + 1
        requests := s.requests.set r (.indexed s.nextCoport) }) ∨
    (∃ r i, a = .countCoport r ∧ s.requests[r]? = some (.indexed i) ∧
      s' = { s with ncoports := s.ncoports + 1, requests := s.requests.set r (.opened i) }) := by
  cases a with
  | arrive => exact .inl ⟨rfl, (Option.some.inj h).symm⟩
  | canAllocate r =>
    simp only [openStep] at h
    split at h
    · rename_i hr
      split at h
      · rename_i hfull
        exact .inr (.inl ⟨r, rfl, hr, hfull, (Option.some.inj h).symm⟩)
      · rename_i hroom
        exact .inr (.inr (.inl ⟨r, rfl, hr, hroom, (Option.some.inj h).symm⟩))
    · cases h
  | takeIndex r =>
    simp only [openStep] at h
    split at h
    · rename_i hr
      exact .inr (.inr (.inr (.inl ⟨r, rfl, hr, (Option.some.inj h).symm⟩)))
    · cases h
  | countCoport r =>
    simp only [openStep] at h
    split at h
    · rename_i i hr
      exact .inr (.inr (.inr (.inr ⟨r, i, rfl, hr, (Option.some.inj h).symm⟩)))
    · cases h

section Steps
variable {s s' : OpenState} {a : OpenAct}

/-- The counts after a step of request `r` from phase `x` to phase `y`. -/
theorem counts_set {xs : List OpenPhase} {r : Nat} {x : OpenPhase} (hr : xs[r]? = some x)
    (y : OpenPhase) :
    (xs.set r y).countP inFlight + (inFlight x).toNat = xs.countP inFlight + (inFlight y).toNat ∧
    (xs.set r y).countP isIndexed + (isIndexed x).toNat =
      xs.countP isIndexed + (isIndexed y).toNat ∧
    (xs.set r y).countP isOpened + (isOpened x).toNat = xs.countP isOpened + (isOpened y).toNat :=
  ⟨countP_set_add inFlight hr, countP_set_add isIndexed hr, countP_set_add isOpened hr⟩

theorem countersOk_step (h : CountersOk s) (hroom : RoomAtTest s a) (hs : openStep s a = some s') :
    CountersOk s' := by
  obtain ⟨hle, hnext, hopened, hrefused⟩ := h
  -- A request that is refused after the step was refused before, unless it is the one that moved.
  have hbefore {r : Nat} {y : OpenPhase} (hy : y ≠ .refused) (r' : Nat)
      (hr' : (s.requests.set r y)[r']? = some .refused) : s.ncoports = maxCoports := by
    rcases getElem?_set_cases hr' with ⟨-, heq⟩ | ⟨-, hr'⟩
    · exact absurd heq.symm hy
    · exact hrefused r' hr'
  rcases openStep_cases hs with ⟨rfl, rfl⟩ | ⟨r, rfl, hr, hfull, rfl⟩ | ⟨r, rfl, hr, hless, rfl⟩ |
    ⟨r, rfl, hr, rfl⟩ | ⟨r, i, rfl, hr, rfl⟩
  · refine ⟨by simpa [inFlight] using hle, by simpa [isIndexed] using hnext,
      by simpa [isOpened] using hopened, fun r' hr' => ?_⟩
    rcases getElem?_concat_cases hr' with hr' | heq
    · exact hrefused r' hr'
    · cases heq
  · obtain ⟨hflight, hindexed, hdone⟩ := counts_set hr .refused
    simp only [inFlight, isIndexed, isOpened, Bool.toNat_false] at hflight hindexed hdone
    exact ⟨by simp only; omega, by simp only; omega, by simp only; omega, fun _ _ => hfull⟩
  · obtain ⟨hflight, hindexed, hdone⟩ := counts_set hr .tested
    simp only [inFlight, isIndexed, isOpened, Bool.toNat_false, Bool.toNat_true]
      at hflight hindexed hdone
    have hfits := hroom hless
    exact ⟨by simp only; omega, by simp only; omega, by simp only; omega, hbefore (by simp)⟩
  · obtain ⟨hflight, hindexed, hdone⟩ := counts_set hr (.indexed s.nextCoport)
    simp only [inFlight, isIndexed, isOpened, Bool.toNat_false, Bool.toNat_true]
      at hflight hindexed hdone
    exact ⟨by simp only; omega, by simp only; omega, by simp only; omega, hbefore (by simp)⟩
  · obtain ⟨hflight, hindexed, hdone⟩ := counts_set hr (.opened i)
    simp only [inFlight, isIndexed, isOpened, Bool.toNat_false, Bool.toNat_true]
      at hflight hindexed hdone
    refine ⟨by simp only; omega, by simp only; omega, by simp only; omega, fun r' hr' => ?_⟩
    -- A full table has no room for this request.
    have hfull := hbefore (by simp) r' hr'
    omega

/-- A request that moves to a phase without an entry leaves the entries of the others. -/
theorem hasEntry_set {q r i : Nat} {y : OpenPhase} (hy : ∀ j, y ≠ .indexed j ∧ y ≠ .opened j)
    (h : HasEntry { s with requests := s.requests.set q y } r i) : HasEntry s r i := by
  rcases h with h | h <;> rcases getElem?_set_cases h with ⟨-, heq⟩ | ⟨-, h⟩
  · exact absurd heq.symm (hy i).1
  · exact .inl h
  · exact absurd heq.symm (hy i).2
  · exact .inr h

/-- What a request holds after a step, it held before, or it is the index that was just taken. -/
theorem hasEntry_step (hs : openStep s a = some s') {r i : Nat} (h : HasEntry s' r i) :
    HasEntry s r i ∨ (a = .takeIndex r ∧ i = s.nextCoport) := by
  rcases openStep_cases hs with ⟨rfl, rfl⟩ | ⟨r', rfl, hr, -, rfl⟩ | ⟨r', rfl, hr, -, rfl⟩ |
    ⟨r', rfl, hr, rfl⟩ | ⟨r', j, rfl, hr, rfl⟩
  · left
    rcases h with h | h <;> rcases getElem?_concat_cases h with h | heq
    · exact .inl h
    · cases heq
    · exact .inr h
    · cases heq
  · exact .inl (hasEntry_set (fun _ => by simp) h)
  · exact .inl (hasEntry_set (fun _ => by simp) h)
  · rcases h with h | h <;> rcases getElem?_set_cases h with ⟨rfl, heq⟩ | ⟨-, h⟩
    · cases heq
      exact .inr ⟨rfl, rfl⟩
    · exact .inl (.inl h)
    · cases heq
    · exact .inl (.inr h)
  · left
    rcases h with h | h <;> rcases getElem?_set_cases h with ⟨rfl, heq⟩ | ⟨-, h⟩
    · cases heq
    · exact .inl h
    · cases heq
      exact .inl hr
    · exact .inr h

theorem nextCoport_step (hs : openStep s a = some s') :
    s'.nextCoport = s.nextCoport ∨ (s'.nextCoport = s.nextCoport + 1 ∧ ∃ r, a = .takeIndex r) := by
  rcases openStep_cases hs with ⟨rfl, rfl⟩ | ⟨r, rfl, hr, -, rfl⟩ | ⟨r, rfl, hr, -, rfl⟩ |
    ⟨r, rfl, hr, rfl⟩ | ⟨r, j, rfl, hr, rfl⟩
  · exact .inl rfl
  · exact .inl rfl
  · exact .inl rfl
  · exact .inr ⟨rfl, r, rfl⟩
  · exact .inl rfl

theorem indicesOk_step (h : IndicesOk s) (hs : openStep s a = some s') : IndicesOk s' where
  taken r i hi := by
    rcases hasEntry_step hs hi with hi | ⟨rfl, rfl⟩
    · have hlt := h.taken r i hi
      rcases nextCoport_step hs with hn | ⟨hn, -⟩ <;> omega
    · rcases openStep_cases hs with ⟨heq, -⟩ | ⟨_, heq, -⟩ | ⟨_, heq, -⟩ | ⟨r', -, -, rfl⟩ |
        ⟨_, _, heq, -⟩
      · cases heq
      · cases heq
      · cases heq
      · exact Nat.lt_succ_self _
      · cases heq
  distinct r r' i hi hi' := by
    rcases hasEntry_step hs hi with hi | ⟨ha, hnew⟩ <;>
      rcases hasEntry_step hs hi' with hi' | ⟨ha', hnew'⟩
    · exact h.distinct r r' i hi hi'
    · have := h.taken r i hi
      omega
    · have := h.taken r' i hi'
      omega
    · rw [ha] at ha'
      cases ha'
      rfl

end Steps

/-- When every test is passed with room for the requests in flight, the entries are within the
table and distinct, and a request is refused only when `max_coports` entries were handed out. -/
theorem open_within_table {s : OpenState} (h : Reach openStep RoomAtTest OpenState.init s) :
    (∀ r i, HasEntry s r i → i < maxCoports) ∧
    (∀ r r' i, HasEntry s r i → HasEntry s r' i → r = r') ∧
    ∀ r : Nat, s.requests[r]? = some .refused → s.requests.countP isOpened = maxCoports := by
  have hinv : CountersOk s ∧ IndicesOk s := by
    induction h with
    | init =>
      refine ⟨⟨by decide, rfl, rfl, ?_⟩, ⟨?_, ?_⟩⟩
      · simp [OpenState.init]
      · simp [HasEntry, OpenState.init]
      · simp [HasEntry, OpenState.init]
    | next a hreach hroom hs ih => exact ⟨countersOk_step ih.1 hroom hs, indicesOk_step ih.2 hs⟩
  obtain ⟨hcount, hindex⟩ := hinv
  refine ⟨fun r i hi => ?_, hindex.distinct, fun r hr => ?_⟩
  · have hlt := hindex.taken r i hi
    -- The requests with an index are among those in flight.
    have hsub : s.requests.countP isIndexed ≤ s.requests.countP inFlight := by
      refine List.countP_mono_left fun x _ hx => ?_
      cases x <;> first | rfl | cases hx
    have hnext := hcount.next
    have hroom := hcount.room
    omega
  · rw [hcount.opened]
    exact hcount.refused r hr

/-- A test of the condition. -/
def checkRoom (s : OpenState) : OpenAct → Bool
  | .canAllocate _ => s.ncoports = maxCoports ∨ s.ncoports + s.requests.countP inFlight < maxCoports
  | _ => true

theorem roomAtTest_of_check (s : OpenState) (a : OpenAct) (h : checkRoom s a = true) :
    RoomAtTest s a := by
  cases a with
  | canAllocate r =>
    intro hne
    simpa [checkRoom, hne] using h
  | _ => trivial

/-- Two requests that overlap get the first two entries. -/
theorem open_within_table_two :
    ∃ s, runFrom openStep OpenState.init [.arrive, .arrive, .canAllocate 0, .canAllocate 1,
        .takeIndex 1, .takeIndex 0, .countCoport 0, .countCoport 1] = some s ∧
      HasEntry s 1 0 ∧ ∀ r i, HasEntry s r i → i < maxCoports := by
  obtain ⟨s, hs⟩ : ∃ s, runFrom openStep OpenState.init [.arrive, .arrive, .canAllocate 0,
      .canAllocate 1, .takeIndex 1, .takeIndex 0, .countCoport 0, .countCoport 1] = some s :=
    Option.isSome_iff_exists.mp (by decide)
  have hentry : s.requests[1]? = some (OpenPhase.opened 0) :=
    eq_of_map_runFrom (fun s => s.requests[1]?) hs (by decide)
  have hreach := reach_of_checkAll roomAtTest_of_check _ _ _ (by decide) hs
  exact ⟨s, hs, .inr hentry, (open_within_table hreach).1⟩

/-! ### The boundary -/

/-- Requests that were served one after the other. -/
def served (n : Nat) : OpenState := ⟨n, n, (List.range n).map .opened⟩

theorem served_succ {n : Nat} (hn : n < maxCoports) :
    runFrom openStep (served n) [.arrive, .canAllocate n, .takeIndex n, .countCoport n] =
      some (served (n + 1)) := by
  have hroom : n ≠ maxCoports := Nat.ne_of_lt hn
  simp [runFrom, openStep, served, hroom, List.range_succ]

/-- The table fills up. -/
theorem reach_served {n : Nat} (hn : n ≤ maxCoports) :
    Reach openStep anyAct OpenState.init (served n) := by
  induction n with
  | zero => exact .init
  | succ n ih => exact (ih (by omega)).trans (reach_of_runFrom _ _ _ (served_succ hn))

/-- With one entry left, two requests pass the test before either is counted, and one of them
takes an index behind the table. -/
theorem open_behind_table :
    ∃ s r, Reach openStep anyAct OpenState.init s ∧ HasEntry s r maxCoports := by
  have hfull := reach_served (n := 255) (by decide)
  obtain ⟨s, hs⟩ : ∃ s, runFrom openStep (served 255) [.arrive, .arrive, .canAllocate 255,
      .canAllocate 256, .takeIndex 255, .takeIndex 256] = some s := by
    simp [runFrom, openStep, served, maxCoports, List.getElem?_append, List.set_append]
  refine ⟨s, 256, hfull.trans (reach_of_runFrom _ _ _ hs), .inl ?_⟩
  refine eq_of_map_runFrom (fun s => s.requests[256]?) hs ?_
  simp [runFrom, openStep, served, maxCoports, List.getElem?_append, List.set_append]

end Comsg.Proofs.Ipcd
