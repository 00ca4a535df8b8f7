import Comsg.Ipcd.Validate

/-!
# `Comsg.Proofs.Ipcd.Validate`: what the validators of ipcd let through

`valid_coport` asks where a capability points to last. A capability with a foreign seal makes
`unseal_coport` exit. One that is not sealed is read through, whatever it allows, and the type
found there picks the table, which is `NULL` for most values. And one that is not sealed but
points into a table is accepted, though not as a cocarrier.

`capCase` sorts the capabilities that a client can have by what `valid_coport` makes of them.
`validate_safe_iff` says for which arguments a validator returns and accepts handles only.
-/

set_option autoImplicit false

namespace Comsg.Proofs.Ipcd

open Comsg.Lib
open Comsg.Ipcd
open Comsg.Ipcd.PortTables

/-- A sealed handle to an allocated entry of the table of its type. -/
def IsHandle (s : PortTables) (c : PortCap) : Prop :=
  ∃ type i, i < s.nextCoport type ∧ c = s.handle type i

section
variable {s : PortTables}

/-- The coports of the request are handles. -/
def HandlesOnly : PortRequest s → Prop
  | .cosend args             => IsHandle s args.cocarrier.cap
  | .corecv cocarrier        => IsHandle s cocarrier.cap
  | .coclose port            => IsHandle s port.cap
  | .copoll ncoports coports =>
    ∀ i, i < ncoports → ∃ c, readCoport coports i = some c ∧ IsHandle s c.cap
  | .comsgFree port _        => IsHandle s port.cap

/-- The validator returns, and it accepts handles only. -/
def ValidatesSafely (r : PortRequest s) : Prop :=
  ∃ ok, validate r = some ok ∧ (ok = true → HandlesOnly r)

/-- The capability has a tag and the length of a coport. -/
def PortSized (c : PortCap) : Prop := c.tag = true ∧ sizeofCoport ≤ c.length

/-- A capability that ipcd does not survive: it has a seal of someone else, or it is not sealed
and either cannot be read or is to memory that does not begin like a coport. -/
def TakesDown (s : PortTables) (c : PortCap) : Prop :=
  PortSized c ∧ (c.otype = some .foreign ∨ (c.otype = none ∧
    (¬c.Spans offsetType sizeofType ∨ ∀ type : CoportType,
      s.mem (c.addr + offsetType) ≠ type.toInt)))

/-- A capability into a table that is not sealed. -/
def Unsealed (s : PortTables) (c : PortCap) : Prop :=
  PortSized c ∧ c.otype = none ∧ c.Spans offsetType sizeofType ∧
    ∃ type : CoportType, s.mem (c.addr + offsetType) = type.toInt ∧ s.InTable c.addr type

/-- Entry `j` of the array can be read and has a handle of a cocarrier. -/
def Polled (coports : PollArray s) (j : Nat) : Prop :=
  ∃ c i, readCoport coports j = some c ∧ i < s.nextCoport .cocarrier ∧
    c.cap = s.handle .cocarrier i

/-- The arguments on which a validator fails. -/
def Breaks : PortRequest s → Prop
  | .cosend args =>
    args.length ≤ cocarrierMaxMsgLen ∧ args.message.tag = true ∧
      args.message.length ≤ cocarrierMaxMsgLen ∧ TakesDown s args.cocarrier.cap
  | .corecv cocarrier => TakesDown s cocarrier.cap
  | .coclose port => TakesDown s port.cap ∨ Unsealed s port.cap
  | .copoll ncoports coports =>
    -- The loop ends at the first entry that is no handle of a cocarrier.
    ∃ i, i < ncoports ∧ (∀ j, j < i → Polled coports j) ∧
      ∀ c, readCoport coports i = some c → TakesDown s c.cap
  | .comsgFree port message =>
    TakesDown s port.cap ∨ (Unsealed s port.cap ∧ message.tag = true)

/-! ### `valid_coport` -/

theorem getCoportTable_toInt (type : CoportType) : getCoportTable type.toInt = some type := by
  cases type <;> decide

theorem getCoportTable_eq_none {v : Int} (h : ∀ type : CoportType, v ≠ type.toInt) :
    getCoportTable v = none := by
  simp [getCoportTable, h .cocarrier, h .copipe, h .cochannel]

/-- What `valid_coport` makes of a capability. -/
inductive CapCase (s : PortTables) (c : PortCap) : Prop
  | takesDown (h : TakesDown s c) (hvalid : s.validCoport c = none)
  | unsealed (h : Unsealed s c) (hvalid : s.validCoport c = some true)
  | refused (hdown : ¬TakesDown s c) (hunsealed : ¬Unsealed s c)
      (hvalid : s.validCoport c = some false)
  | handle (type : CoportType) (i : Nat) (hi : i < s.nextCoport type) (h : c = s.handle type i)
      (hvalid : s.validCoport c = some true)

/-- Entries are in their table. -/
theorem inTable_entry {type : CoportType} {i : Nat} (hi : i < s.nextCoport type) :
    s.InTable (s.entry type i) type := by
  have hfits := s.fits type
  have hle : (i + 1) * sizeofCoportTblEntry ≤ s.nextCoport type * sizeofCoportTblEntry :=
    Nat.mul_le_mul_right _ hi
  have hpos : 0 < sizeofCoportTblEntry := by decide
  rw [Nat.succ_mul] at hle
  unfold PortTables.InTable PortTables.entry
  omega

theorem validCoport_handle {type : CoportType} {i : Nat} (hi : i < s.nextCoport type) :
    s.validCoport (s.handle type i) = some true := by
  have hloads : (s.handle type i).unsealed.Loads offsetType sizeofType := by
    refine ⟨rfl, rfl, show Meets coportPerms permLoad by decide, ?_, ?_⟩
    · exact Nat.le_add_right _ _
    · show s.entry type i + offsetType + sizeofType ≤ s.entry type i + sizeofCoport
      simp only [offsetType, sizeofType, sizeofCoport, chericapSize]
      omega
  have htype : s.coportGettype (s.handle type i) = some type.toInt := by
    have hread : s.mem (s.entry type i + offsetType) = type.toInt := s.typed type i hi
    have haddr : (s.handle type i).unsealed.addr = s.entry type i := rfl
    simp only [PortTables.coportGettype, unsealCoport, PortTables.handle, Option.bind_eq_bind,
      Option.bind_some] at hloads haddr ⊢
    rw [if_pos hloads, haddr, hread]
  rw [PortTables.validCoport, if_neg (by simp [PortTables.handle]),
    if_neg (by simp [PortTables.handle]), htype]
  simp [PortTables.inCoportTable, getCoportTable_toInt, PortTables.handle, inTable_entry hi]

/-- `valid_coport` on a capability of the right size that is not sealed. -/
theorem validCoport_unsealed {c : PortCap} (hsized : PortSized c) (hot : c.otype = none) :
    s.validCoport c = if c.Spans offsetType sizeofType then
      s.inCoportTable c (s.mem (c.addr + offsetType)) else none := by
  have hloads : c.Loads offsetType sizeofType ↔ c.Spans offsetType sizeofType := by
    simp [BoundedCap.Loads, hsized.1, hot]
  simp only [PortTables.validCoport, hsized.1, Bool.true_eq_false, if_false,
    Nat.not_lt.mpr hsized.2, PortTables.coportGettype, unsealCoport, hot, Option.bind_eq_bind,
    Option.bind_some, hloads]
  split <;> rfl

theorem capCase (c : ClientCap s) : CapCase s c.cap := by
  by_cases hsized : PortSized c.cap
  · cases hot : c.cap.otype with
    | none =>
      have hvalid := validCoport_unsealed (s := s) hsized hot
      by_cases hspans : c.cap.Spans offsetType sizeofType
      · rw [if_pos hspans] at hvalid
        by_cases htype : ∃ type : CoportType, s.mem (c.cap.addr + offsetType) = type.toInt
        · obtain ⟨type, htype⟩ := htype
          have hin : s.validCoport c.cap = some (decide (s.InTable c.cap.addr type)) := by
            rw [hvalid, htype, PortTables.inCoportTable, getCoportTable_toInt]
            rfl
          by_cases htable : s.InTable c.cap.addr type
          · exact .unsealed ⟨hsized, hot, hspans, type, htype, htable⟩ (by simpa [htable] using hin)
          · refine .refused ?_ ?_ (by simpa [htable] using hin)
            · rintro ⟨-, hforeign | ⟨-, hno | hno⟩⟩
              · simp [hot] at hforeign
              · exact hno hspans
              · exact hno type htype
            · rintro ⟨-, -, -, type', htype', htable'⟩
              obtain rfl : type = type' := by
                have hsame := getCoportTable_toInt type
                rw [← htype, htype', getCoportTable_toInt] at hsame
                exact (Option.some.inj hsame).symm
              exact htable htable'
        · have hnone : ∀ type : CoportType, s.mem (c.cap.addr + offsetType) ≠ type.toInt :=
            fun type heq => htype ⟨type, heq⟩
          refine .takesDown ⟨hsized, .inr ⟨hot, .inr hnone⟩⟩ ?_
          rw [hvalid, PortTables.inCoportTable, getCoportTable_eq_none hnone]
          rfl
      · rw [if_neg hspans] at hvalid
        exact .takesDown ⟨hsized, .inr ⟨hot, .inl hspans⟩⟩ hvalid
    | some ot =>
      cases ot with
      | coport type =>
        obtain ⟨i, hi, hhandle⟩ := c.unforged type hsized.1 hot
        exact .handle type i hi hhandle (hhandle ▸ validCoport_handle hi)
      | foreign =>
        refine .takesDown ⟨hsized, .inl hot⟩ ?_
        simp [PortTables.validCoport, hsized.1, Nat.not_lt.mpr hsized.2, PortTables.coportGettype,
          unsealCoport, hot]
  · refine .refused (fun h => hsized h.1) (fun h => hsized h.1) ?_
    unfold PortTables.validCoport
    split
    · rfl
    · rename_i htag
      rw [if_pos]
      by_contra hlen
      exact hsized ⟨by simpa using htag, Nat.not_lt.mp hlen⟩

/-- A handle is not one of the other capabilities. -/
theorem not_takesDown_handle {type : CoportType} {i : Nat} :
    ¬TakesDown s (s.handle type i) ∧ ¬Unsealed s (s.handle type i) := by
  constructor
  · rintro ⟨-, hforeign | ⟨hnone, -⟩⟩
    · cases hforeign
    · cases hnone
  · rintro ⟨-, hnone, -⟩
    cases hnone

theorem Unsealed.not_takesDown {c : PortCap} (h : Unsealed s c) : ¬TakesDown s c := by
  obtain ⟨-, hot, hspans, type, htype, -⟩ := h
  rintro ⟨-, hforeign | ⟨-, hno | hno⟩⟩
  · simp [hot] at hforeign
  · exact hno hspans
  · exact hno type htype

/-- What `valid_cocarrier` makes of a capability. -/
inductive CarrierCase (s : PortTables) (c : PortCap) : Prop
  | takesDown (h : TakesDown s c) (hvalid : s.validCocarrier c = none)
  | refused (hdown : ¬TakesDown s c) (hno : ∀ i, c ≠ s.handle .cocarrier i)
      (hvalid : s.validCocarrier c = some false)
  | handle (i : Nat) (hi : i < s.nextCoport .cocarrier) (h : c = s.handle .cocarrier i)
      (hdown : ¬TakesDown s c) (hvalid : s.validCocarrier c = some true)

theorem carrierCase (c : ClientCap s) : CarrierCase s c.cap := by
  cases capCase c with
  | takesDown h hvalid => exact .takesDown h (by simp [PortTables.validCocarrier, hvalid])
  | unsealed h hvalid =>
    have hot : c.cap.otype = none := h.2.1
    refine .refused h.not_takesDown ?_ (by simp [PortTables.validCocarrier, hvalid, hot])
    intro i heq
    simp [heq, PortTables.handle] at hot
  | refused hdown hunsealed hvalid =>
    refine .refused hdown ?_ (by simp [PortTables.validCocarrier, hvalid])
    intro i heq
    obtain ⟨j, hj, hhandle⟩ := c.unforged .cocarrier (by rw [heq]; rfl) (by rw [heq]; rfl)
    rw [hhandle, validCoport_handle hj] at hvalid
    cases hvalid
  | handle type i hi h hvalid =>
    have hdown : ¬TakesDown s c.cap := by
      rw [h]
      exact not_takesDown_handle.1
    by_cases htype : type = .cocarrier
    · subst htype
      refine .handle i hi h hdown ?_
      simp [PortTables.validCocarrier, hvalid]
      rw [h]
      rfl
    · refine .refused hdown ?_ ?_
      · intro j heq
        rw [h] at heq
        have hot := congrArg BoundedCap.otype heq
        simp [PortTables.handle, htype] at hot
      · have hot : c.cap.otype = some (.coport type) := by
          rw [h]
          rfl
        simp [PortTables.validCocarrier, hvalid, hot, htype]

/-! ### The loop of `validate_copoll_args` -/

/-- What the loop makes of `n` entries from `i` on: it accepts all of them, or it stops at entry
`k`. -/
inductive LoopCase (coports : PollArray s) (i n : Nat) : Prop
  | accepted (h : ∀ k, i ≤ k → k < i + n → Polled coports k)
      (hloop : copollLoop coports i n = some true)
  | faulted (k : Nat) (hk : i ≤ k ∧ k < i + n) (h : ∀ j, i ≤ j → j < k → Polled coports j)
      (hdown : ∀ c, readCoport coports k = some c → TakesDown s c.cap)
      (hloop : copollLoop coports i n = none)
  | refused (k : Nat) (hk : i ≤ k ∧ k < i + n) (h : ∀ j, i ≤ j → j < k → Polled coports j)
      (c : ClientCap s) (hread : readCoport coports k = some c) (hdown : ¬TakesDown s c.cap)
      (hno : ¬Polled coports k) (hloop : copollLoop coports i n = some false)

theorem loopCase (coports : PollArray s) (i n : Nat) : LoopCase coports i n := by
  induction n generalizing i with
  | zero => exact .accepted (fun k hle hlt => by omega) rfl
  | succ n ih =>
    cases hread : readCoport coports i with
    | none =>
      refine .faulted i (by omega) (fun j hle hlt => by omega) (fun c hc => ?_) ?_
      · simp [hread] at hc
      · simp [copollLoop, hread]
    | some c =>
      cases carrierCase c with
      | takesDown h hvalid =>
        refine .faulted i (by omega) (fun j hle hlt => by omega) (fun c' hc' => ?_) ?_
        · rw [hread, Option.some.injEq] at hc'
          exact hc' ▸ h
        · simp [copollLoop, hread, hvalid]
      | refused hdown hno hvalid =>
        refine .refused i (by omega) (fun j hle hlt => by omega) c hread hdown ?_
          (by simp [copollLoop, hread, hvalid])
        rintro ⟨c', j, hread', -, hhandle⟩
        obtain rfl : c = c' := Option.some.inj (hread.symm.trans hread')
        exact hno j hhandle
      | handle j hj h hdown hvalid =>
        have hpolled : Polled coports i := ⟨c, j, hread, hj, h⟩
        have hfrom {k : Nat} (hle : i ≤ k) (hrest : i + 1 ≤ k → Polled coports k) :
            Polled coports k := by
          rcases Nat.eq_or_lt_of_le hle with rfl | hlt
          · exact hpolled
          · exact hrest hlt
        have hstep : copollLoop coports i (n + 1) = copollLoop coports (i + 1) n := by
          simp [copollLoop, hread, hvalid]
        -- The rest of the loop starts at the next entry.
        cases ih (i + 1) with
        | accepted hall hloop =>
          exact .accepted (fun k hle hlt => hfrom hle fun hle' => hall k hle' (by omega))
            (hstep.trans hloop)
        | faulted k hk hbefore hdown' hloop =>
          exact .faulted k (by omega) (fun j hle hlt => hfrom hle fun hle' => hbefore j hle' hlt)
            hdown' (hstep.trans hloop)
        | refused k hk hbefore c' hread' hdown' hno hloop =>
          exact .refused k (by omega) (fun j hle hlt => hfrom hle fun hle' => hbefore j hle' hlt)
            c' hread' hdown' hno (hstep.trans hloop)

theorem Polled.not_takesDown {coports : PollArray s} {j : Nat} (h : Polled coports j) :
    ¬∀ c, readCoport coports j = some c → TakesDown s c.cap := by
  obtain ⟨c, i, hread, -, hhandle⟩ := h
  intro hdown
  have htakes := hdown c hread
  rw [hhandle] at htakes
  exact not_takesDown_handle.1 htakes

theorem copoll_safe_iff (ncoports : Nat) (coports : PollArray s) :
    ValidatesSafely (.copoll ncoports coports) ↔ ¬Breaks (.copoll ncoports coports) := by
  simp only [ValidatesSafely, validate, validateCopollArgs, Breaks]
  cases loopCase coports 0 ncoports with
  | accepted hall hloop =>
    have hhandles : HandlesOnly (.copoll ncoports coports) := by
      intro i hi
      obtain ⟨c, k, hread, hk, hhandle⟩ := hall i (Nat.zero_le i) (by omega)
      exact ⟨c, hread, .cocarrier, k, hk, hhandle⟩
    refine iff_of_true ⟨true, hloop, fun _ => hhandles⟩ ?_
    rintro ⟨i, hi, -, hdown⟩
    exact (hall i (Nat.zero_le i) (by omega)).not_takesDown hdown
  | faulted k hk hbefore hdown hloop =>
    refine iff_of_false ?_ ?_
    · rintro ⟨ok, hok, -⟩
      simp [hloop] at hok
    · exact fun hno => hno ⟨k, by omega, fun j hj => hbefore j (Nat.zero_le j) hj, hdown⟩
  | refused k hk hbefore c hread hdown hno hloop =>
    refine iff_of_true ⟨false, hloop, fun htrue => by cases htrue⟩ ?_
    rintro ⟨i, hi, hbefore', hdown'⟩
    rcases Nat.lt_trichotomy i k with hlt | rfl | hgt
    · exact (hbefore i (Nat.zero_le i) hlt).not_takesDown hdown'
    · exact hdown (hdown' c hread)
    · exact hno (hbefore' k hgt)

/-! ### The validators -/

/-- A validator that asks `valid_cocarrier`, where it gets that far. -/
theorem safe_of_carrier {r : PortRequest s} {c : ClientCap s}
    (hnone : s.validCocarrier c.cap = none → validate r = none)
    (hsome : ∀ valid, s.validCocarrier c.cap = some valid →
      ∃ ok, validate r = some ok ∧ (ok = true → valid = true))
    (hhandles : IsHandle s c.cap → HandlesOnly r) :
    ValidatesSafely r ↔ ¬TakesDown s c.cap := by
  cases carrierCase c with
  | takesDown h hvalid =>
    refine iff_of_false ?_ (fun hno => hno h)
    rintro ⟨ok, hok, -⟩
    simp [hnone hvalid] at hok
  | refused hdown hno hvalid =>
    obtain ⟨ok, hok, himp⟩ := hsome false hvalid
    exact iff_of_true ⟨ok, hok, fun htrue => by cases himp htrue⟩ hdown
  | handle i hi h hdown hvalid =>
    obtain ⟨ok, hok, -⟩ := hsome true hvalid
    exact iff_of_true ⟨ok, hok, fun _ => hhandles ⟨.cocarrier, i, hi, h⟩⟩ hdown

/-- A validator that asks `valid_coport`, and accepts what also passes another test. -/
theorem safe_of_coport {r : PortRequest s} {c : ClientCap s} {test : Bool}
    (hr : validate r = do if (← s.validCoport c.cap) = false then some false else some test)
    (hhandles : HandlesOnly r ↔ IsHandle s c.cap) :
    ValidatesSafely r ↔ ¬(TakesDown s c.cap ∨ (Unsealed s c.cap ∧ test = true)) := by
  simp only [ValidatesSafely, hr, hhandles]
  cases capCase c with
  | takesDown h hvalid => simp [hvalid, h]
  | unsealed h hvalid =>
    have hno : ¬IsHandle s c.cap := by
      rintro ⟨type, i, -, hhandle⟩
      rw [hhandle] at h
      exact not_takesDown_handle.2 h
    simp [hvalid, h, h.not_takesDown, hno]
  | refused hdown hunsealed hvalid => simp [hvalid, hdown, hunsealed]
  | handle type i hi h hvalid =>
    have hhandle : IsHandle s c.cap := ⟨type, i, hi, h⟩
    have hdown : ¬TakesDown s c.cap ∧ ¬Unsealed s c.cap := by
      rw [h]
      exact not_takesDown_handle
    simp [hvalid, hhandle, hdown]

theorem cosend_safe_iff (args : CosendArgs s) :
    ValidatesSafely (.cosend args) ↔ ¬Breaks (.cosend args) := by
  have hearly (h : s.validateCosendArgs args = some false) : ValidatesSafely (.cosend args) :=
    ⟨false, h, fun htrue => by cases htrue⟩
  simp only [Breaks]
  by_cases hlen : args.length ≤ cocarrierMaxMsgLen
  · by_cases htag : args.message.tag = true
    · by_cases hmsg : args.message.length ≤ cocarrierMaxMsgLen
      · simp only [hlen, htag, hmsg, true_and]
        refine safe_of_carrier (fun hnone => ?_) (fun valid hvalid => ?_) (fun h => h)
        · simp [validate, PortTables.validateCosendArgs, Nat.not_lt.mpr hlen, htag,
            Nat.not_lt.mpr hmsg, hnone]
        · simp only [validate, PortTables.validateCosendArgs, Nat.not_lt.mpr hlen, htag,
            Nat.not_lt.mpr hmsg, hvalid, Option.bind_eq_bind, Option.bind_some, if_false,
            Bool.true_eq_false]
          cases valid with
          | false => exact ⟨false, by simp, fun h => h⟩
          | true =>
            simp only [Bool.true_eq_false, if_false, implies_true, and_true]
            split
            · split
              · exact ⟨_, rfl⟩
              · exact ⟨_, rfl⟩
            · exact ⟨_, rfl⟩
      · refine iff_of_true (hearly ?_) (fun h => hmsg h.2.2.1)
        simp [PortTables.validateCosendArgs, Nat.not_lt.mpr hlen, htag, Nat.lt_of_not_le hmsg]
    · refine iff_of_true (hearly ?_) (fun h => htag h.2.1)
      simp [PortTables.validateCosendArgs, Nat.not_lt.mpr hlen, htag]
  · refine iff_of_true (hearly ?_) (fun h => hlen h.1)
    simp [PortTables.validateCosendArgs, Nat.lt_of_not_le hlen]

end

/-- No coport has been opened, and memory holds zeros. -/
def noPorts : PortTables where
  base type := type.toInt.toNat * 2 ^ 20
  length _ := 256 * sizeofCoportTblEntry
  nextCoport _ := 0
  mem _ := 0
  fits _ := by simp
  typed type i hi := by cases hi

/-- One cocarrier has been opened. -/
def onePort : PortTables where
  base type := type.toInt.toNat * 2 ^ 20
  length _ := 256 * sizeofCoportTblEntry
  nextCoport type := if type = .cocarrier then 1 else 0
  mem addr := if addr = 2 * 2 ^ 20 + offsetType then CoportType.cocarrier.toInt else 0
  fits type := by cases type <;> decide
  typed type i hi := by
    cases type with
    | cocarrier =>
      obtain rfl : i = 0 := by simpa using hi
      rfl
    | _ => cases hi

/-- A capability of a client to a page of its own. -/
def clientPage : ClientCap noPorts where
  cap := ⟨true, none, 4096, 4096, 4096, permLoad⟩
  unforged type _ hot := by cases hot

/-- The capability with a seal of the client. -/
def clientSealed : ClientCap noPorts where
  cap := { clientPage.cap with otype := some .foreign }
  unforged type _ hot := by cases hot

end Comsg.Proofs.Ipcd
