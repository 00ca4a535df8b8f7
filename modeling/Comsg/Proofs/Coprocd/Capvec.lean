import Comsg.Coprocd.Capvec

/-!
# `Comsg.Proofs.Coprocd.Capvec`: the capability vectors decode to what was encoded

`makeCapvec_eq` says what comes of a list of capabilities. No assertion fails. When `calloc`
returns memory, the vector is the list, then `NULL`. Its length is what `cheri_setbounds` makes of
the length plus one. Up to 1023 capabilities that is exact, and 1024 capabilities get a vector of
1026 entries (`capvec_of_1024`).

`buildDaemonCapvec_eq` is the vector of a core daemon, and `capvec_decodes` says that every field
of the daemon's struct has the capability of its name.
-/

set_option autoImplicit false

namespace Comsg.Proofs.Coprocd

open Comsg.Coprocd Comsg.Lib

section Vectors
variable {α : Type}

/-! ### The vector while it is filled -/

/-- A vector of `size` entries that begins with `caps`. -/
def filledCapvec (length : Int) (size : Nat) (caps : List (Option α)) : Capvec α :=
  ⟨some (caps ++ List.replicate (size - caps.length) none), length, caps.length⟩

variable {length : Int} {size : Nat} {caps : List (Option α)}

/-- A store at the end of what is filled. -/
theorem capvStore_filled (h : caps.length < size) (cap : Option α) :
    capvStore (filledCapvec length size caps).capv caps.length cap =
      .ok (caps ++ cap :: List.replicate (size - (caps.length + 1)) none) := by
  obtain ⟨k, rfl⟩ : ∃ k, size = caps.length + 1 + k := ⟨size - (caps.length + 1), by omega⟩
  have hrest : caps.length + 1 + k - caps.length = k + 1 := by omega
  have hbound : (caps.length : Int) <
      (caps ++ List.replicate (k + 1) (none : Option α)).length := by
    rw [List.length_append, List.length_replicate]
    omega
  rw [filledCapvec, hrest, capvStore, if_pos ⟨by omega, hbound⟩, Int.toNat_natCast,
    List.set_append_right _ _ (Nat.le_refl _), Nat.sub_self, List.replicate_succ,
    List.set_cons_zero, Nat.add_sub_cancel_left]

/-- `capvec_append`, as long as there is room for one more. -/
theorem capvecAppend_filled (hlt : (caps.length : Int) + 1 < length) (hle : length ≤ size)
    (cap : Option α) :
    capvecAppend (filledCapvec length size caps) cap =
      .ok (filledCapvec length size (caps ++ [cap])) := by
  have hindex : ¬((caps.length : Int) = -1) := by omega
  have hstore : capvStore (filledCapvec length size caps).capv caps.length cap = _ :=
    capvStore_filled (by omega) cap
  have hroom : ¬¬(caps.length : Int) + 1 < length := not_not_intro hlt
  show (do
    if (caps.length : Int) = -1 then throw CapvecError.assertion
    if ¬(caps.length : Int) + 1 < length then throw CapvecError.assertion
    let mem ← capvStore (filledCapvec length size caps).capv caps.length cap
    return { filledCapvec length size caps with capv := some mem, index := caps.length + 1 }) = _
  rw [if_neg hindex, if_neg hroom, hstore]
  simp [filledCapvec, pure, Except.pure, bind, Except.bind]

theorem foldlM_capvecAppend_filled (more : List (Option α))
    (hlt : (caps.length : Int) + more.length < length) (hle : length ≤ size) :
    more.foldlM capvecAppend (filledCapvec length size caps) =
      .ok (filledCapvec length size (caps ++ more)) := by
  induction more generalizing caps with
  | nil =>
    rw [List.append_nil]
    rfl
  | cons cap more ih =>
    rw [List.length_cons] at hlt
    rw [List.foldlM_cons, capvecAppend_filled (by omega) hle]
    have hrest := @ih (caps ++ [cap]) (by simp; omega)
    rw [List.append_assoc] at hrest
    exact hrest

/-- The bytes of the vector that `capvec_finalize` asks for, in entries. -/
def capvEntries (n : Nat) : Nat := representableLength 12 (sizeofCap * (n + 1)) / sizeofCap

theorem succ_le_capvEntries (n : Nat) : n + 1 ≤ capvEntries n := by
  rw [capvEntries, Nat.le_div_iff_mul_le (by decide), Nat.mul_comm]
  exact le_representableLength 12 _

/-- The vector has no part of an entry. -/
theorem sizeofCap_mul_capvEntries (n : Nat) :
    sizeofCap * capvEntries n = representableLength 12 (sizeofCap * (n + 1)) := by
  have hdvd : 2 ^ 4 ∣ sizeofCap * (n + 1) := Nat.dvd_mul_right _ _
  exact Nat.mul_div_cancel' (pow_dvd_representableLength hdvd)

/-- `capvec_finalize` has room for the `NULL` where `capvec_append` has none for a capability. -/
theorem capvecFinalize_filled (hlt : (caps.length : Int) < length) (hle : length ≤ size)
    (hsize : capvEntries caps.length ≤ size) :
    ∃ capvec, capvecFinalize (filledCapvec length size caps) =
      .ok (capvec, caps ++ none ::
        List.replicate (capvEntries caps.length - (caps.length + 1)) none) := by
  have hindex : ¬((caps.length : Int) = -1) := by omega
  have hroom : ¬¬(caps.length : Int) + 1 ≤ length := not_not_intro (by omega)
  have hstore : capvStore (filledCapvec length size caps).capv caps.length none = _ :=
    capvStore_filled (by omega) none
  have hnat : ((caps.length : Int) + 1).toNat = caps.length + 1 := by omega
  have hentries := succ_le_capvEntries caps.length
  have hbounds : capvSetbounds (caps ++ none :: List.replicate (size - (caps.length + 1)) none)
      (sizeofCap * (caps.length + 1)) = .ok (caps ++ none ::
        List.replicate (capvEntries caps.length - (caps.length + 1)) none) := by
    rw [capvSetbounds, ← capvEntries, if_pos (by simp; omega)]
    obtain ⟨k, hk⟩ : ∃ k, capvEntries caps.length = caps.length + (k + 1) :=
      ⟨capvEntries caps.length - (caps.length + 1), by omega⟩
    have hsub : caps.length + (k + 1) - (caps.length + 1) = k := by omega
    rw [hk, hsub, List.take_length_add_append, List.take_succ_cons, List.take_replicate,
      Nat.min_eq_left (by omega)]
  refine ⟨⟨some (caps ++ none :: List.replicate (size - (caps.length + 1)) none), length, -1⟩, ?_⟩
  show (do
    if (caps.length : Int) = -1 then throw CapvecError.assertion
    if ¬(caps.length : Int) + 1 ≤ length then throw CapvecError.assertion
    let mem ← capvStore (filledCapvec length size caps).capv caps.length none
    let capv ← capvSetbounds mem (sizeofCap * ((caps.length : Int) + 1).toNat)
    return ({ filledCapvec length size caps with capv := some mem, index := -1 }, capv)) = _
  rw [if_neg hindex, if_neg hroom, hstore, hnat]
  show (do
    let capv ← capvSetbounds (caps ++ none :: List.replicate (size - (caps.length + 1)) none)
      (sizeofCap * (caps.length + 1))
    return (({ filledCapvec length size caps with
      capv := some (caps ++ none :: List.replicate (size - (caps.length + 1)) none),
      index := -1 } : Capvec α), capv)) = _
  rw [hbounds]
  rfl

/-! ### A vector without memory -/

theorem capvecAppend_null {i : Int} (hi : 0 ≤ i) (hlt : i + 1 < length) (cap : Option α) :
    capvecAppend ⟨none, length, i⟩ cap = .error .fault := by
  have hindex : ¬i = -1 := by omega
  show (do
    if i = -1 then throw CapvecError.assertion
    if ¬i + 1 < length then throw CapvecError.assertion
    let mem ← capvStore none i cap
    return ({ capv := some mem, length, index := i + 1 } : Capvec α)) = _
  rw [if_neg hindex, if_neg (not_not_intro hlt)]
  rfl

theorem capvecFinalize_null {i : Int} (hi : 0 ≤ i) (hle : i + 1 ≤ length) :
    capvecFinalize (⟨none, length, i⟩ : Capvec α) = .error .fault := by
  have hindex : ¬i = -1 := by omega
  show (do
    if i = -1 then throw CapvecError.assertion
    if ¬i + 1 ≤ length then throw CapvecError.assertion
    let mem ← capvStore none i none
    let capv ← capvSetbounds mem (sizeofCap * (i + 1).toNat)
    return (({ capv := some mem, length, index := -1 } : Capvec α), capv)) = _
  rw [if_neg hindex, if_neg (not_not_intro hle)]
  rfl

/-! ### The whole of it -/

/-- `calloc` returns memory for the struct and for `n` entries. -/
def Serves (heap : Calloc) (n : Nat) : Prop :=
  (heap.calloc 0 sizeofCapvec).isSome = true ∧ (heap.calloc 1 (sizeofCap * n)).isSome = true

instance (heap : Calloc) (n : Nat) : Decidable (Serves heap n) :=
  inferInstanceAs (Decidable (_ ∧ _))

theorem ok_bind {β γ : Type} (b : β) (g : β → Except CapvecError γ) :
    (Except.ok b >>= g) = g b := rfl

theorem error_bind {β γ : Type} (e : CapvecError) (g : β → Except CapvecError γ) :
    (Except.error e >>= g) = .error e := rfl

variable {heap : Calloc} {n : Nat}

/-- The memory has room for what `capvec_finalize` asks for. -/
theorem capvEntries_le {m k : Nat} (hm : heap.calloc 1 (sizeofCap * (n + 1)) = some m)
    (hk : k ≤ n) : capvEntries k ≤ m / sizeofCap := by
  refine Nat.div_le_div_right ?_
  refine representableLength_le_of_representable (heap.representable 1 _ m hm) ?_
  exact Nat.le_trans (Nat.mul_le_mul_left _ (by omega)) (heap.le 1 _ m hm)

/-- `capvec_allocate`. -/
theorem capvecAllocate_eq (hpos : 0 < n) (hmax : n + 1 < 2 ^ 63)
    (hstruct : (heap.calloc 0 sizeofCapvec).isSome = true) :
    capvecAllocate heap n = .ok (⟨(heap.calloc 1 (sizeofCap * (n + 1))).map fun m =>
      List.replicate (m / sizeofCap) none, (n + 1 : Nat), 0⟩ : Capvec α) := by
  obtain ⟨_, hstruct⟩ := Option.isSome_iff_exists.mp hstruct
  have hmod : (((n : Int) + 1) % 2 ^ 64).toNat = n + 1 := by omega
  have hbmod : ((n : Int) + 1).bmod (2 ^ 64) = (n + 1 : Nat) := by
    rw [Int.bmod_eq_of_le (by omega) (by omega)]
    rfl
  rw [capvecAllocate, if_pos (by omega), hstruct]
  simp only [hmod, hbmod]

theorem capvecAllocate_filled {m : Nat} (hpos : 0 < n) (hmax : n + 1 < 2 ^ 63)
    (hstruct : (heap.calloc 0 sizeofCapvec).isSome = true)
    (hm : heap.calloc 1 (sizeofCap * (n + 1)) = some m) :
    capvecAllocate heap n =
      .ok (filledCapvec (n + 1 : Nat) (m / sizeofCap) ([] : List (Option α))) := by
  rw [capvecAllocate_eq hpos hmax hstruct, hm]
  rfl

/-- The vector of a list of capabilities. Where `calloc` returns `NULL`, the first store faults. -/
theorem makeCapvec_eq (hpos : 0 < n) (hmax : n + 1 < 2 ^ 63) (hlen : caps.length ≤ n) :
    makeCapvec heap n caps =
      if Serves heap (n + 1) then
        .ok (caps ++ none :: List.replicate (capvEntries caps.length - (caps.length + 1)) none)
      else .error .fault := by
  rw [makeCapvec]
  cases hstruct : heap.calloc 0 sizeofCapvec with
  | none =>
    have hfault : capvecAllocate heap n = .error (CapvecError.fault) (α := Capvec α) := by
      rw [capvecAllocate, if_pos (by omega), hstruct]
    rw [if_neg (by simp [Serves, hstruct]), hfault]
    rfl
  | some _ =>
    have hsome : (heap.calloc 0 sizeofCapvec).isSome = true := by simp [hstruct]
    cases hm : heap.calloc 1 (sizeofCap * (n + 1)) with
    | none =>
      rw [if_neg (by simp [Serves, hm]), capvecAllocate_eq hpos hmax hsome, hm, Option.map_none,
        ok_bind]
      cases caps with
      | nil =>
        rw [List.foldlM_nil, pure_bind, capvecFinalize_null (by omega) (by omega), error_bind]
      | cons cap caps =>
        rw [List.length_cons] at hlen
        rw [List.foldlM_cons, capvecAppend_null (by omega) (by omega), error_bind, error_bind]
    | some m =>
      have hentries := capvEntries_le hm hlen
      have hsize : n + 1 ≤ m / sizeofCap :=
        Nat.le_trans (succ_le_capvEntries n) (capvEntries_le hm (Nat.le_refl n))
      rw [if_pos ⟨hsome, by simp [hm]⟩, capvecAllocate_filled hpos hmax hsome hm, ok_bind,
        foldlM_capvecAppend_filled caps (by simp; omega) (by omega), ok_bind, List.nil_append]
      obtain ⟨capvec, hfin⟩ := @capvecFinalize_filled α (n + 1 : Nat) (m / sizeofCap) caps
        (by omega) (by omega) hentries
      rw [hfin]
      rfl

/-- Up to 1024 entries the bounds are exact. -/
theorem capvEntries_eq {k : Nat} (h : k < 1024) : capvEntries k = k + 1 := by
  have hrep : Representable 12 (sizeofCap * (k + 1)) := by
    rcases Nat.lt_or_eq_of_le (Nat.succ_le_of_lt h) with hlt | heq
    · have hle : sizeofCap * (k + 1) ≤ 2 ^ 14 - 1 := by
        show 16 * (k + 1) ≤ 2 ^ 14 - 1
        omega
      have htop : granule 12 (2 ^ 14 - 1) = sizeofCap := by decide
      exact Nat.dvd_trans (htop ▸ granule_dvd_granule hle) (Nat.dvd_mul_right _ _)
    · rw [show k + 1 = 1024 from heq]
      decide
  rw [capvEntries, representableLength_eq hrep, Nat.mul_div_cancel_left _ (by decide)]

end Vectors

/-! ### The vectors of the core daemons -/

section Daemons
variable {α : Type}

/-- The setup states of a daemon that was started any number of times. -/
inductive SpawnedBefore (info : DaemonSetupInfo) : Option (DaemonSetupState α) → Prop
  | fresh : SpawnedBefore info none
  | again {state : Option (DaemonSetupState α)} (scb : InitFunc → Option α)
      (h : SpawnedBefore info state) :
      SpawnedBefore info (some (spawnDaemonInitializer scb state info))

/-- A worker of an earlier start is not used any more. -/
theorem SpawnedBefore.spawn {info : DaemonSetupInfo} {state : Option (DaemonSetupState α)}
    (h : SpawnedBefore info state) (scb : InitFunc → Option α) :
    spawnDaemonInitializer scb state info = ⟨info.setup.map scb, info.done.map scb⟩ := by
  induction h generalizing scb with
  | fresh => simp [spawnDaemonInitializer]
  | again scb' _ ih =>
    rw [spawnDaemonInitializer, Option.getD_some, ih]
    cases info.setup <;> cases info.done <;> rfl

/-- The capability that a field is named after: the SCB of the daemon's setup function or of its
done function, or a variable of `core.c`. -/
def capOfName (core : Core α) (scb : InitFunc → Option α) (d : CoreDaemon) :
    CapvecField → Option α
  | .coprocInit     => d.setupInfo.setup.bind scb
  | .coprocInitDone => d.setupInfo.done.bind scb
  | .rootNs         => core.rootNamespace
  | .codiscover     => core.codiscoverScb
  | .coinsert       => core.coinsertScb
  | .coselect       => core.coselectScb

/-- The assertions of the daemon's `get_capv` hold. -/
def CapvReady (core : Core α) : CoreDaemon → Prop
  | .nsd => True
  | .coserviced => core.rootNamespace.isSome = true ∧ core.coinsertScb.isSome = true ∧
      core.coselectScb.isSome = true
  | .coeventd | .ipcd => core.coprocInited = true ∧ core.rootNamespace.isSome = true ∧
      core.codiscoverScb.isSome = true ∧ core.coinsertScb.isSome = true ∧
      core.coselectScb.isSome = true

/-- The entries that are allocated for a daemon's vector. -/
def capvRoom (d : CoreDaemon) : Nat := d.setupInfo.nCaps.toNat + 3

variable {heap : Calloc} {core : Core α} {scb : InitFunc → Option α} {d : CoreDaemon}

/-- The SCBs of the workers come first. -/
theorem fillDaemonCapvec_workers {info : DaemonSetupInfo} {state : DaemonSetupState α}
    {capvec : Capvec α} (h : capvecAllocate heap (info.nCaps + 2) = .ok capvec) :
    fillDaemonCapvec heap core info state =
      (state.setupWorker.toList ++ state.doneWorker.toList).foldlM capvecAppend capvec >>=
        fun capvec => info.getCapv.elim (pure capvec) fun f => callGetCapv core f capvec := by
  rw [fillDaemonCapvec, h]
  cases state.setupWorker <;> cases state.doneWorker <;> simp <;> rfl

/-- What `get_capv` appends. -/
def getCapvCaps (core : Core α) (d : CoreDaemon) : List (Option α) :=
  (d.capvec.filter fun f => f ≠ .coprocInit ∧ f ≠ .coprocInitDone).map
    (capOfName core (fun _ => none) d)

/-- There is room for what is appended, and for the `NULL`. -/
theorem appends_lt_capvRoom (core : Core α) (scb : InitFunc → Option α) (d : CoreDaemon) :
    ((d.setupInfo.setup.map scb).toList ++ (d.setupInfo.done.map scb).toList).length +
      (getCapvCaps core d).length < capvRoom d := by
  cases d with
  | nsd =>
    show 2 + 0 < 3
    decide
  | coserviced =>
    show 1 + 3 < 6
    decide
  | coeventd | ipcd =>
    show 1 + 4 < 7
    decide

/-- `get_capv` appends its capabilities, or an assertion of it fails. -/
theorem getCapv_eq (core : Core α) (d : CoreDaemon) (capvec : Capvec α) :
    (CapvReady core d → (d.setupInfo.getCapv.elim (pure capvec) fun f =>
        callGetCapv core f capvec) = (getCapvCaps core d).foldlM capvecAppend capvec) ∧
    (¬CapvReady core d → (d.setupInfo.getCapv.elim (pure capvec) fun f =>
        callGetCapv core f capvec) = .error .assertion) := by
  cases d with
  | nsd => exact ⟨fun _ => rfl, fun h => absurd trivial h⟩
  | coserviced => exact ⟨fun h => if_pos h, fun h => if_neg h⟩
  | coeventd => exact ⟨fun h => if_pos h, fun h => if_neg h⟩
  | ipcd => exact ⟨fun h => if_pos h, fun h => if_neg h⟩

/-- The vector of a daemon before `capvec_finalize`. -/
theorem fillDaemonCapvec_eq (hheap : Serves heap (capvRoom d)) :
    ∃ size, capvRoom d ≤ size ∧
      (CapvReady core d → fillDaemonCapvec heap core d.setupInfo
          ⟨d.setupInfo.setup.map scb, d.setupInfo.done.map scb⟩ =
        .ok (filledCapvec (capvRoom d) size (d.capvec.map (capOfName core scb d)))) ∧
      (¬CapvReady core d → fillDaemonCapvec heap core d.setupInfo
          ⟨d.setupInfo.setup.map scb, d.setupInfo.done.map scb⟩ = .error .assertion) := by
  obtain ⟨hstruct, hvec⟩ := hheap
  obtain ⟨m, hm⟩ := Option.isSome_iff_exists.mp hvec
  obtain ⟨n, hn, hcaps⟩ : ∃ n : Nat, capvRoom d = n + 1 ∧ d.setupInfo.nCaps + 2 = n := by
    cases d <;> exact ⟨_, rfl, rfl⟩
  have hbounds : 0 < n ∧ n + 1 < 2 ^ 63 := by
    cases d <;> simp [capvRoom, CoreDaemon.setupInfo] at hn <;> omega
  rw [hn] at hm
  have hsize : n + 1 ≤ m / sizeofCap :=
    Nat.le_trans (succ_le_capvEntries n) (capvEntries_le hm (Nat.le_refl n))
  have halloc : capvecAllocate heap (d.setupInfo.nCaps + 2) =
      .ok (filledCapvec (n + 1 : Nat) (m / sizeofCap) ([] : List (Option α))) := by
    rw [hcaps]
    exact capvecAllocate_filled hbounds.1 hbounds.2 hstruct hm
  have hfit := appends_lt_capvRoom core scb d
  rw [hn] at hfit
  have hworkers : ((d.setupInfo.setup.map scb).toList ++
        (d.setupInfo.done.map scb).toList).foldlM capvecAppend
        (filledCapvec (n + 1 : Nat) (m / sizeofCap) ([] : List (Option α))) = .ok _ :=
    foldlM_capvecAppend_filled _ (by simp only [List.length_nil]; omega) (by omega)
  refine ⟨m / sizeofCap, by omega, ?_, ?_⟩
  · intro hready
    rw [fillDaemonCapvec_workers halloc, hworkers]
    show (d.setupInfo.getCapv.elim (pure _) fun f => callGetCapv core f _) = _
    rw [(getCapv_eq core d _).1 hready, List.nil_append,
      foldlM_capvecAppend_filled _ (by omega) (by omega), hn]
    cases d <;> rfl
  · intro hready
    rw [fillDaemonCapvec_workers halloc, hworkers]
    exact (getCapv_eq core d _).2 hready

theorem capvec_length_lt_capvRoom (d : CoreDaemon) : d.capvec.length < capvRoom d := by
  cases d <;> decide

/-- The vector of a daemon. -/
theorem buildDaemonCapvec_eq (hheap : Serves heap (capvRoom d)) (hready : CapvReady core d) :
    buildDaemonCapvec heap core d.setupInfo
        ⟨d.setupInfo.setup.map scb, d.setupInfo.done.map scb⟩ =
      .ok (d.capvec.map (capOfName core scb d) ++ [none]) := by
  obtain ⟨size, hsize, hfill, -⟩ := @fillDaemonCapvec_eq α heap core scb d hheap
  have hlt := capvec_length_lt_capvRoom d
  have hlen : (d.capvec.map (capOfName core scb d)).length = d.capvec.length := List.length_map _
  have hexact : capvEntries (d.capvec.map (capOfName core scb d)).length = d.capvec.length + 1 := by
    rw [hlen]
    exact capvEntries_eq (by cases d <;> decide)
  obtain ⟨capvec, hfin⟩ := @capvecFinalize_filled α (capvRoom d) size
    (d.capvec.map (capOfName core scb d)) (by omega) (by omega) (by omega)
  rw [buildDaemonCapvec, hfill hready, ok_bind, hfin, hexact, hlen, Nat.sub_self]
  rfl

theorem read_capvec {f : CapvecField} (hf : f ∈ d.capvec) (g : CapvecField → Option α)
    (rest : List (Option α)) : d.read (d.capvec.map g ++ rest) f = some (g f) := by
  have hlt : d.capvec.idxOf f < d.capvec.length := List.idxOf_lt_length_of_mem hf
  rw [CoreDaemon.read, List.getElem?_append_left (by simpa using hlt), List.getElem?_map,
    List.getElem?_eq_getElem hlt, List.getElem_idxOf]
  rfl

end Daemons

/-! ### Both together -/

section Main
variable {α : Type}

/-- What becomes of a list of capabilities. No assertion fails. When there is memory, the vector
is the list and `NULL`, and what the rounding of its bounds adds is `NULL` too. -/
structure Encoded (heap : Calloc) (maxlen : Int) (caps : List (Option α)) : Prop where
  asserted : makeCapvec heap maxlen caps ≠ .error .assertion
  vector : Serves heap (maxlen + 1).toNat → ∃ rest,
    makeCapvec heap maxlen caps = .ok (caps ++ none :: rest) ∧ (∀ x ∈ rest, x = none) ∧
    sizeofCap * (caps ++ none :: rest).length =
      representableLength 12 (sizeofCap * (caps.length + 1)) ∧
    (caps.length < 1024 → rest = [])

/-- What a daemon is started with. The vector is built exactly if the assertions of `get_capv`
hold, and the daemon reads each capability in the field of its name. -/
structure Decoded (heap : Calloc) (core : Core α) (scb : InitFunc → Option α)
    (state : DaemonSetupState α) (d : CoreDaemon) : Prop where
  appends : ∀ capvec, fillDaemonCapvec heap core d.setupInfo state = .ok capvec →
    capvec.index ≤ d.setupInfo.nCaps + 2
  ready : CapvReady core d → ∃ capv, buildDaemonCapvec heap core d.setupInfo state = .ok capv ∧
    ∀ f ∈ d.capvec, d.read capv f = some (capOfName core scb d f)
  asserted : ¬CapvReady core d →
    buildDaemonCapvec heap core d.setupInfo state = .error .assertion

theorem encoded (heap : Calloc) {maxlen : Int} {caps : List (Option α)} (hpos : 0 < maxlen)
    (hmax : maxlen + 1 < 2 ^ 63) (hlen : (caps.length : Int) ≤ maxlen) :
    Encoded heap maxlen caps := by
  obtain ⟨n, rfl⟩ := Int.eq_ofNat_of_zero_le (Int.le_of_lt hpos)
  have heq := @makeCapvec_eq α caps heap n (by omega) (by omega) (by omega)
  have hentries := succ_le_capvEntries caps.length
  refine ⟨?_, fun hheap => ?_⟩
  · rw [heq]
    split <;> simp
  · rw [if_pos (by simpa using hheap)] at heq
    refine ⟨_, heq, fun x hx => List.eq_of_mem_replicate hx, ?_, fun hsmall => ?_⟩
    · rw [List.length_append, List.length_cons, List.length_replicate,
        ← sizeofCap_mul_capvEntries caps.length]
      congr 1
      omega
    · rw [capvEntries_eq hsmall, Nat.sub_self]
      rfl

theorem decoded {heap : Calloc} {core : Core α} (scb : InitFunc → Option α)
    {state : Option (DaemonSetupState α)} {d : CoreDaemon}
    (hstate : SpawnedBefore d.setupInfo state) (hheap : Serves heap (capvRoom d)) :
    Decoded heap core scb (spawnDaemonInitializer scb state d.setupInfo) d := by
  rw [hstate.spawn scb]
  obtain ⟨size, -, hfill, hfail⟩ := @fillDaemonCapvec_eq α heap core scb d hheap
  refine ⟨fun capvec hcapvec => ?_, fun hready => ?_, fun hready => ?_⟩
  · by_cases hready : CapvReady core d
    · rw [hfill hready] at hcapvec
      cases hcapvec
      show ((d.capvec.map (capOfName core scb d)).length : Int) ≤ d.setupInfo.nCaps + 2
      rw [List.length_map]
      cases d <;> decide
    · rw [hfail hready] at hcapvec
      cases hcapvec
  · exact ⟨_, buildDaemonCapvec_eq hheap hready, fun f hf => read_capvec hf _ _⟩
  · rw [buildDaemonCapvec, hfail hready]
    rfl

/-- The vectors decode to what coprocd has encoded. -/
theorem capvec_decodes (heap : Calloc) :
    (∀ (maxlen : Int) (caps : List (Option α)), 0 < maxlen → maxlen + 1 < 2 ^ 63 →
      (caps.length : Int) ≤ maxlen → Encoded heap maxlen caps) ∧
    (∀ (d : CoreDaemon) (core : Core α) (scb : InitFunc → Option α)
      (state : Option (DaemonSetupState α)), SpawnedBefore d.setupInfo state →
      Serves heap (capvRoom d) →
      Decoded heap core scb (spawnDaemonInitializer scb state d.setupInfo) d) :=
  ⟨fun _ _ hpos hmax hlen => encoded heap hpos hmax hlen,
    fun _ _ scb _ hstate hheap => decoded scb hstate hheap⟩

end Main

/-- A heap that gives what is asked for, rounded up, as long as the address space has it. -/
def roundingHeap : Calloc where
  calloc _ n := if representableLength 12 n < 2 ^ 64 then some (representableLength 12 n) else none
  le _ n m h := by
    rw [Option.ite_none_right_eq_some] at h
    cases h.2
    exact le_representableLength 12 n
  lt _ n m h := by
    rw [Option.ite_none_right_eq_some] at h
    cases h.2
    exact h.1
  representable _ n m h := by
    rw [Option.ite_none_right_eq_some] at h
    cases h.2
    exact representable_representableLength (by decide) n

/-- coprocd after the handshake. The capabilities are told apart by their numbers. -/
def startedCore : Core Nat :=
  { initCoreState Nat with
    codiscoverScb := some 4
    rootNamespace := some 1
    coinsertScb := some 2
    coselectScb := some 3
    coprocInited := true }

/-- Three capabilities, and the codiscover SCB of coeventd. -/
theorem capvec_decodes_three :
    makeCapvec roundingHeap 3 [some 1, some 2, none] = .ok [some 1, some 2, none, none] ∧
    ∃ capv, buildDaemonCapvec roundingHeap startedCore CoreDaemon.coeventd.setupInfo
        (spawnDaemonInitializer (fun _ => some 9) none CoreDaemon.coeventd.setupInfo) = .ok capv ∧
      CoreDaemon.coeventd.read capv .codiscover = some (some 4) := by
  obtain ⟨hencoded, hdecoded⟩ := capvec_decodes (α := Nat) roundingHeap
  obtain ⟨rest, hvec, -, -, hrest⟩ :=
    (hencoded 3 [some 1, some 2, none] (by decide) (by decide) (by decide)).vector (by decide)
  rw [hrest (by decide)] at hvec
  have hd := hdecoded .coeventd startedCore (fun _ => some 9) none .fresh (by decide)
  obtain ⟨capv, hbuild, hread⟩ := hd.ready (by decide : _ ∧ _)
  exact ⟨hvec, capv, hbuild, hread .codiscover (by decide)⟩

/-- 1024 capabilities and `NULL` take 16400 bytes. A capability cannot have that length, and the
vector gets 1026 entries. -/
theorem capvec_of_1024 :
    ∃ capv, makeCapvec roundingHeap 1024 (List.replicate 1024 (some 0)) = .ok capv ∧
      capv.length = 1026 ∧ capv ≠ List.replicate 1024 (some 0) ++ [none] := by
  have hlen : (List.replicate 1024 (some 0)).length = 1024 := List.length_replicate
  have hentries : capvEntries 1024 = 1026 := by decide
  have heq := @makeCapvec_eq Nat (List.replicate 1024 (some 0)) roundingHeap 1024 (by decide)
    (by decide) (by rw [hlen])
  rw [if_pos (by decide), hlen, hentries] at heq
  refine ⟨_, heq, ?_, fun hsame => ?_⟩
  · rw [List.length_append, hlen]
    rfl
  · have hlength := congrArg List.length hsame
    rw [List.length_append, List.length_append, hlen] at hlength
    cases hlength

end Comsg.Proofs.Coprocd
