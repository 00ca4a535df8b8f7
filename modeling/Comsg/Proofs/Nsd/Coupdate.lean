import Comsg.Nsd.Workers
import Comsg.Proofs.Nsd.Typing

/-!
# `Comsg.Proofs.Nsd.Coupdate`: a reservation fulfilled on several threads

`coupdate` tests the type, stores the type and then stores the handle. `update_nsobject` tests the
type, exchanges the handle and then stores the type. So the test of `coupdate` claims the
reservation, and so does the exchange of `update_nsobject`. When `coupdate` does not test the type
while another update has still to store it, and `update_nsobject` does not exchange the handle
while another one has still to store that, one update at most succeeds, and the type and the handle
are both its own (`reservation_fulfilled_once`). Two requests that both pass the test can leave the
type of one with the handle of the other (`reservation_fulfilled_twice`).
-/

set_option autoImplicit false

namespace Comsg.Proofs.Nsd

open Comsg.Lib
open Comsg.Nsd

/-! ### What an update asks for -/

/-- The capability to the reservation. -/
def targetCap : Update → NsCap
  | .coupdate args            => args.nsobj
  | .updateNsobject nsobj _ _ => nsobj

/-- The type that it is to get. -/
def newType : Update → NsobjectType
  | .coupdate args             => args.nsobjType
  | .updateNsobject _ _ newType => newType

/-- The handle that it is to get. -/
def newHandle : Update → NsCap
  | .coupdate args             => args.obj
  | .updateNsobject _ handle _ => handle

/-- nsd calls `update_nsobject` with the type `COSERVICE` and with a handle that is not `NULL`. In a
request, the validator makes sure of this. -/
def FillsReservation : Update → Prop
  | .coupdate _                      => True
  | .updateNsobject _ handle newType => newType ≠ .reservation ∧ handle ≠ .null

instance (u : Update) : Decidable (FillsReservation u) := by
  cases u <;> unfold FillsReservation <;> infer_instance

/-! ### Who has the reservation -/

/-- The update has claimed the reservation: `coupdate` by its test of the type, and
`update_nsobject` by the exchange of the handle. -/
def claimed : Update → UpdatePhase → Bool
  | .coupdate _, .tested | .coupdate _, .typed => true
  | .updateNsobject _ _ _, .exchanged          => true
  | _, .replied reply                          => reply.isOk
  | _, .returned success                       => success
  | _, _                                       => false

/-- The update has claimed the reservation and has still to store the type. -/
def typePending : Update → UpdatePhase → Bool
  | .coupdate _, .tested              => true
  | .updateNsobject _ _ _, .exchanged => true
  | _, _                              => false

/-- The update has claimed the reservation and has still to store the handle. -/
def handlePending : Update → UpdatePhase → Bool
  | .coupdate _, .tested | .coupdate _, .typed => true
  | _, _                                       => false

/-- The first update looks for a claim where the second one has not left its mark yet. -/
def updatesConflict : Update × UpdatePhase → Update × UpdatePhase → Bool
  | (.coupdate _, .validated), y        => typePending y.1 y.2
  | (.updateNsobject _ _ _, .tested), y => handlePending y.1 y.2
  | _, _                                => false

/-- The update has succeeded. -/
def succeeded : UpdatePhase → Bool
  | .replied reply    => reply.isOk
  | .returned success => success
  | _                 => false

/-- The object was not a free reservation any more. -/
def refused : UpdatePhase → Bool
  | .replied reply    => reply = .err .enodev
  | .returned success => !success
  | _                 => false

/-- The updates are of object `k`. `coupdate` tests the type only while no other update has still to
store it, and `update_nsobject` exchanges the handle only while no other one has still to store
that. -/
def UpdatedAlone (k : Nat) : Updates → PoolAct Update → Prop :=
  OneAtATime (fun u => (targetCap u).target = some (.nsobj k) ∧ FillsReservation u) updatesConflict

/-- The tables while an update that has claimed the reservation in `t` goes on. -/
def UpdatedSoFar (t : Tables) (k : Nat) (s : Tables) : Update → UpdatePhase → Prop
  | .coupdate _, .tested                   => s = t
  | .coupdate args, .typed                 => s = t.setType k args.nsobjType
  | .updateNsobject _ handle _, .exchanged => s = t.setObj k handle
  | u, _                                   => s = fillObject t k (newType u) (newHandle u)

/-- What holds of an update in every state. Behind the validator it asks for a type and a handle
that a reservation does not have. -/
def UpdateFits (k : Nat) (u : Update) (phase : UpdatePhase) : Prop :=
  (targetCap u).target = some (.nsobj k) ∧
    (newType u ≠ .reservation ∧ newHandle u ≠ .null ∨
      (∃ args, u = .coupdate args) ∧ (phase = .arrived ∨ phase = .replied (.err .einval)))

/-- The reservation that the updates are for. -/
def IsReservation (t : Tables) (k : Nat) : Prop :=
  ∃ o, t.nsobjects[k]? = some o ∧ o.type = .reservation ∧ o.obj = .null

theorem claimed_of_succeeded {u : Update} {phase : UpdatePhase} (h : succeeded phase = true) :
    claimed u phase = true := by
  cases phase with
  | replied reply | returned success => cases u <;> exact h
  | _ => cases h

section Steps
variable {t s s' : Tables} {k : Nat} {u : Update} {phase phase' : UpdatePhase}

/-- An update without the reservation stays so, or it claims it. It is refused when the object is
something else or has a handle. -/
theorem updateAdvance_outside (hout : claimed u phase = false)
    (h : s.updateAdvance u phase = some (s', phase')) :
    (s' = s ∧ claimed u phase' = false ∧ (refused phase' = true →
      ∃ i o, s.nsobj (unsealNsobj (targetCap u)) = some (i, o) ∧
        (o.type ≠ .reservation ∨ o.obj ≠ .null))) ∨
    (∃ args i o, u = .coupdate args ∧ phase = .validated ∧
      s.nsobj (unsealNsobj args.nsobj) = some (i, o) ∧ o.type = .reservation ∧
      s' = s ∧ phase' = .tested) ∨
    ∃ nsobj handle type i o, u = .updateNsobject nsobj handle type ∧ phase = .tested ∧
      s.nsobj (unsealNsobj nsobj) = some (i, o) ∧ o.obj = .null ∧
      s' = s.setObj i handle ∧ phase' = .exchanged := by
  cases u with
  | coupdate args =>
    cases phase with
    | arrived =>
      obtain ⟨valid, -, h⟩ := Option.bind_eq_some_iff.mp h
      split at h <;> cases h <;> exact .inl ⟨rfl, rfl, fun hno => by cases hno⟩
    | validated =>
      simp only [Tables.updateAdvance] at h
      split at h
      · cases h
        exact .inl ⟨rfl, rfl, fun hno => by cases hno⟩
      · split at h
        · cases h
          exact .inl ⟨rfl, rfl, fun hno => by cases hno⟩
        · obtain ⟨⟨i, o⟩, hobj, h⟩ := Option.bind_eq_some_iff.mp h
          simp only at h
          split at h <;> rename_i htype <;> cases h
          · exact .inl ⟨rfl, rfl, fun _ => ⟨i, o, hobj, .inl htype⟩⟩
          · exact .inr (.inl ⟨args, i, o, rfl, rfl, hobj, not_not.mp htype, rfl, rfl⟩)
    | tested | typed => cases hout
    | exchanged | replied reply | returned success => cases h
  | updateNsobject nsobj handle type =>
    cases phase with
    | arrived =>
      obtain ⟨⟨i, o⟩, hobj, h⟩ := Option.bind_eq_some_iff.mp h
      simp only at h
      split at h <;> rename_i htype <;> cases h
      · exact .inl ⟨rfl, rfl, fun _ => ⟨i, o, hobj, .inl htype⟩⟩
      · exact .inl ⟨rfl, rfl, fun hno => by cases hno⟩
    | tested =>
      obtain ⟨⟨i, o⟩, hobj, h⟩ := Option.bind_eq_some_iff.mp h
      simp only at h
      split at h
      · cases h
      · split at h <;> rename_i hnull <;> cases h
        · exact .inr (.inr ⟨nsobj, handle, type, i, o, rfl, rfl, hobj, hnull, rfl, rfl⟩)
        · exact .inl ⟨rfl, rfl, fun _ => ⟨i, o, hobj, .inr hnull⟩⟩
    | exchanged => cases hout
    | validated | typed | replied reply | returned success => cases h

/-- An update reads its object. -/
theorem nsobj_targetCap (htarget : (targetCap u).target = some (.nsobj k)) {i : Nat} {o : Nsobject}
    (h : s.nsobj (unsealNsobj (targetCap u)) = some (i, o)) : i = k ∧ s.nsobjects[k]? = some o := by
  obtain ⟨htarget', ho⟩ := nsobj_unsealNsobj_target h
  obtain rfl : k = i := by simpa [htarget] using htarget'
  exact ⟨rfl, ho⟩

theorem setObj_setType {type : NsobjectType} {obj : NsCap} :
    (t.setType k type).setObj k obj = fillObject t k type obj := by
  simp [Tables.setType, Tables.setObj, fillObject, List.modify_modify_eq, Function.comp_def]

theorem setType_setObj {type : NsobjectType} {obj : NsCap} :
    (t.setObj k obj).setType k type = fillObject t k type obj := by
  simp [Tables.setType, Tables.setObj, fillObject, List.modify_modify_eq, Function.comp_def]

/-- The step by which an update claims the reservation in `t`. -/
theorem updatedSoFar_claim (htarget : (targetCap u).target = some (.nsobj k))
    (hout : claimed u phase = false) (h : t.updateAdvance u phase = some (s', phase'))
    (hin : claimed u phase' = true) : UpdatedSoFar t k s' u phase' := by
  rcases updateAdvance_outside hout h with ⟨-, hno, -⟩ |
    ⟨args, i, o, rfl, -, -, -, rfl, rfl⟩ | ⟨nsobj, handle, type, i, o, rfl, -, hobj, -, rfl, rfl⟩
  · exact absurd hin (by simp [hno])
  · rfl
  · obtain ⟨rfl, -⟩ := nsobj_targetCap (u := .updateNsobject nsobj handle type) htarget hobj
    rfl

/-- The steps of an update that has claimed the reservation. -/
theorem updateAdvance_inside (htarget : (targetCap u).target = some (.nsobj k))
    (hin : claimed u phase = true) (hso : UpdatedSoFar t k s u phase)
    (h : s.updateAdvance u phase = some (s', phase')) :
    claimed u phase' = true ∧ UpdatedSoFar t k s' u phase' := by
  cases u with
  | coupdate args =>
    cases phase with
    | tested =>
      cases (show s = t from hso)
      obtain ⟨⟨i, o⟩, hobj, h⟩ := Option.bind_eq_some_iff.mp h
      obtain ⟨rfl, -⟩ := nsobj_targetCap (u := .coupdate args) htarget hobj
      simp only at h
      split at h <;> cases h
      exact ⟨rfl, rfl⟩
    | typed =>
      cases (show s = t.setType k args.nsobjType from hso)
      obtain ⟨⟨i, o⟩, hobj, h⟩ := Option.bind_eq_some_iff.mp h
      obtain ⟨rfl, -⟩ := nsobj_targetCap (u := .coupdate args) htarget hobj
      simp only at h
      split at h <;> cases h
      exact ⟨rfl, setObj_setType⟩
    | arrived | validated => cases hin
    | exchanged | replied reply | returned success => cases h
  | updateNsobject nsobj handle type =>
    cases phase with
    | exchanged =>
      cases (show s = t.setObj k handle from hso)
      obtain ⟨⟨i, o⟩, hobj, h⟩ := Option.bind_eq_some_iff.mp h
      obtain ⟨rfl, -⟩ := nsobj_targetCap (u := .updateNsobject nsobj handle type) htarget hobj
      cases h
      exact ⟨rfl, setType_setObj⟩
    | arrived | tested => cases hin
    | validated | typed | replied reply | returned success => cases h

theorem updateFits_step (hfit : UpdateFits k u phase)
    (h : s.updateAdvance u phase = some (s', phase')) : UpdateFits k u phase' := by
  refine ⟨hfit.1, ?_⟩
  rcases hfit.2 with hfills | ⟨⟨args, rfl⟩, rfl | rfl⟩
  · exact .inl hfills
  · obtain ⟨valid, hvalid, h⟩ := Option.bind_eq_some_iff.mp h
    split at h
    · cases h
      exact .inr ⟨⟨args, rfl⟩, .inr rfl⟩
    · rename_i hok
      cases h
      rw [Bool.not_eq_false] at hok
      rw [hok] at hvalid
      exact .inl ⟨validateCoupdateArgs_type hvalid, validateCoupdateArgs_obj hvalid⟩
  · cases h

/-- An update that has claimed the reservation asks for another type and for a handle. -/
theorem UpdateFits.fills (hfit : UpdateFits k u phase) (hin : claimed u phase = true) :
    newType u ≠ .reservation ∧ newHandle u ≠ .null := by
  rcases hfit.2 with hfills | ⟨⟨args, rfl⟩, rfl | rfl⟩
  · exact hfills
  · cases hin
  · cases hin

theorem nsobjects_fillObject (ht : IsReservation t k) (type : NsobjectType) (obj : NsCap) :
    ∃ o, (fillObject t k type obj).nsobjects[k]? = some o ∧ o.type = type ∧ o.obj = obj := by
  obtain ⟨o, ho, -⟩ := ht
  exact ⟨{ o with type := type, obj := obj }, by simp [fillObject, ho], rfl, rfl⟩

/-- An update that has succeeded has filled the object. -/
theorem updatedSoFar_succeeded (hin : succeeded phase = true) (hso : UpdatedSoFar t k s u phase) :
    s = fillObject t k (newType u) (newHandle u) := by
  cases phase with
  | replied reply | returned success => cases u <;> exact hso
  | _ => cases hin

/-- The object has the type of the update that has claimed it, once that is stored. -/
theorem type_of_claimed (ht : IsReservation t k) (hin : claimed u phase = true)
    (hstored : typePending u phase = false) (hso : UpdatedSoFar t k s u phase) :
    ∃ o, s.nsobjects[k]? = some o ∧ o.type = newType u := by
  have hdone (hs : s = fillObject t k (newType u) (newHandle u)) :
      ∃ o, s.nsobjects[k]? = some o ∧ o.type = newType u := by
    obtain ⟨o, ho, htype, -⟩ := nsobjects_fillObject ht (newType u) (newHandle u)
    exact ⟨o, hs ▸ ho, htype⟩
  cases u with
  | coupdate args =>
    cases phase with
    | tested => cases hstored
    | typed =>
      cases (show s = t.setType k args.nsobjType from hso)
      obtain ⟨o, ho, -⟩ := ht
      exact ⟨{ o with type := args.nsobjType }, by simp [Tables.setType, ho], rfl⟩
    | replied reply | returned success => exact hdone hso
    | arrived | validated | exchanged => cases hin
  | updateNsobject nsobj handle type =>
    cases phase with
    | exchanged => cases hstored
    | replied reply | returned success => exact hdone hso
    | arrived | validated | tested | typed => cases hin

/-- The object has the handle of the update that has claimed it, once that is stored. -/
theorem handle_of_claimed (ht : IsReservation t k) (hin : claimed u phase = true)
    (hstored : handlePending u phase = false) (hso : UpdatedSoFar t k s u phase) :
    ∃ o, s.nsobjects[k]? = some o ∧ o.obj = newHandle u := by
  have hdone (hs : s = fillObject t k (newType u) (newHandle u)) :
      ∃ o, s.nsobjects[k]? = some o ∧ o.obj = newHandle u := by
    obtain ⟨o, ho, -, hobj⟩ := nsobjects_fillObject ht (newType u) (newHandle u)
    exact ⟨o, hs ▸ ho, hobj⟩
  cases u with
  | coupdate args =>
    cases phase with
    | tested | typed => cases hstored
    | replied reply | returned success => exact hdone hso
    | arrived | validated | exchanged => cases hin
  | updateNsobject nsobj handle type =>
    cases phase with
    | exchanged =>
      cases (show s = t.setObj k handle from hso)
      obtain ⟨o, ho, -⟩ := ht
      exact ⟨{ o with obj := handle }, by simp [Tables.setObj, ho], rfl⟩
    | replied reply | returned success => exact hdone hso
    | arrived | validated | tested | typed => cases hin

/-- After an update has claimed the reservation, another one does not. -/
theorem updateAdvance_shut (ht : IsReservation t k) {u' : Update} {ph ph' : UpdatePhase}
    (hfit : UpdateFits k u phase) (hin : claimed u phase = true)
    (hso : UpdatedSoFar t k s u phase) (hclear : updatesConflict (u', ph) (u, phase) = false)
    (htarget : (targetCap u').target = some (.nsobj k)) (hout : claimed u' ph = false)
    (h : s.updateAdvance u' ph = some (s', ph')) : claimed u' ph' = false := by
  obtain ⟨htype, hhandle⟩ := hfit.fills hin
  rcases updateAdvance_outside hout h with ⟨-, hno, -⟩ |
    ⟨args, i, o, rfl, rfl, hobj, hres, -⟩ |
    ⟨nsobj, handle, type, i, o, rfl, rfl, hobj, hnull, -⟩
  · exact hno
  · obtain ⟨-, ho⟩ := nsobj_targetCap (u := .coupdate args) htarget hobj
    obtain ⟨o', ho', htype'⟩ := type_of_claimed ht hin hclear hso
    obtain rfl : o' = o := Option.some.inj (ho'.symm.trans ho)
    exact absurd (htype' ▸ hres) htype
  · obtain ⟨-, ho⟩ := nsobj_targetCap (u := .updateNsobject nsobj handle type) htarget hobj
    obtain ⟨o', ho', hhandle'⟩ := handle_of_claimed ht hin hclear hso
    obtain rfl : o' = o := Option.some.inj (ho'.symm.trans ho)
    exact absurd (hhandle' ▸ hnull) hhandle

end Steps

/-- The part of an update behind its claim. -/
def updateSection (t : Tables) (k : Nat) (ht : IsReservation t k) :
    ExclusiveSection UpdatePhase.arrived Tables.updateAdvance t where
  good u := (targetCap u).target = some (.nsobj k) ∧ FillsReservation u
  conflicts := updatesConflict
  entered := claimed
  fit := UpdateFits k
  holds := UpdatedSoFar t k
  start_out {u} := by cases u <;> rfl
  start_fit := by
    intro u hgood
    refine ⟨hgood.1, ?_⟩
    cases u with
    | coupdate args => exact .inr ⟨⟨args, rfl⟩, .inl rfl⟩
    | updateNsobject nsobj handle type => exact .inl hgood.2
  fit_step hfit h := updateFits_step hfit h
  out_step hout h hout' := by
    rcases updateAdvance_outside hout h with ⟨hsame, -⟩ |
      ⟨args, i, o, rfl, -, -, -, -, rfl⟩ | ⟨nsobj, handle, type, i, o, rfl, -, -, -, -, rfl⟩
    · exact hsame
    · cases hout'
    · cases hout'
  enter hfit hout h hin := updatedSoFar_claim hfit.1 hout h hin
  stay hfit hin hso h := updateAdvance_inside hfit.1 hin hso h
  shut hin hclear hfit hso hfit' hout h :=
    updateAdvance_shut ht hfit hin hso hclear hfit'.1 hout h

/-! ### Updates that nobody interrupts -/

/-- The object of a capability is still there after a store to it. -/
theorem nsobj_modify {s : Tables} {c : NsCap} {i : Nat} {o : Nsobject} {f : Nsobject → Nsobject}
    (s' : Tables) (h : s.nsobj c = some (i, o)) (hs : s'.nsobjects = s.nsobjects.modify i f) :
    s'.nsobj c = some (i, f o) := by
  obtain ⟨hload, ho⟩ := nsobj_eq_some.mp h
  exact nsobj_eq_some.mpr ⟨hload, by simp [hs, ho]⟩

/-- A `coupdate` that nobody interrupts does what its handler does. -/
theorem coupdate_alone {t t' : Tables} {args : ObjectArgs} {reply : Reply}
    (h : t.handle (.coupdate args) = some (t', reply)) :
    Reach updateStep anyAct ⟨t, [(.coupdate args, .arrived)]⟩
      ⟨t', [(.coupdate args, .replied reply)]⟩ := by
  obtain ⟨valid, hvalid, h⟩ := Option.bind_eq_some_iff.mp h
  split at h
  · rename_i hno
    cases h
    exact reach_alone .init (by simp [Tables.updateAdvance, hvalid, hno])
  · rename_i hyes
    have hvalidated : Reach updateStep anyAct ⟨t, [(.coupdate args, .arrived)]⟩
        ⟨t, [(.coupdate args, .validated)]⟩ :=
      reach_alone .init (by simp [Tables.updateAdvance, hvalid, hyes])
    simp only [Tables.namespaceObjectUpdate] at h
    split at h
    · rename_i hnull
      cases h
      exact reach_alone hvalidated (by simp [Tables.updateAdvance, hnull])
    · rename_i hsome
      split at h
      · rename_i hperm
        cases h
        exact reach_alone hvalidated (by simp [Tables.updateAdvance, hsome, hperm])
      · rename_i hperm
        obtain ⟨⟨i, o⟩, hobj, h⟩ := Option.bind_eq_some_iff.mp h
        simp only at h
        split at h
        · rename_i htype
          cases h
          exact reach_alone hvalidated (by simp [Tables.updateAdvance, hsome, hperm, hobj, htype])
        · rename_i htype
          split at h
          · cases h
          · rename_i hstores
            cases h
            have htested : Reach updateStep anyAct ⟨t, [(.coupdate args, .arrived)]⟩
                ⟨t, [(.coupdate args, .tested)]⟩ :=
              reach_alone hvalidated (by simp [Tables.updateAdvance, hsome, hperm, hobj, htype])
            have htyped : Reach updateStep anyAct ⟨t, [(.coupdate args, .arrived)]⟩
                ⟨t.setType i args.nsobjType, [(.coupdate args, .typed)]⟩ :=
              reach_alone htested
                (by simp [Tables.updateAdvance, hobj, (not_not.mp hstores).1])
            have hobj' := nsobj_modify (t.setType i args.nsobjType) hobj rfl
            have hdone := reach_alone htyped
              (show (t.setType i args.nsobjType).updateAdvance (.coupdate args) .typed =
                  some ((t.setType i args.nsobjType).setObj i args.obj,
                    .replied (.ok ((unsealNsobj args.nsobj).clearperm nsobjPermW)))
                by simp [Tables.updateAdvance, hobj', not_not.mp hstores])
            rwa [setObj_setType] at hdone

/-- A call of `update_nsobject` that nobody interrupts does what the function does. -/
theorem updateNsobject_alone {t t' : Tables} {nsobj handle : NsCap} {type : NsobjectType}
    {success : Bool} (h : t.updateNsobject nsobj handle type = some (t', success)) :
    Reach updateStep anyAct ⟨t, [(.updateNsobject nsobj handle type, .arrived)]⟩
      ⟨t', [(.updateNsobject nsobj handle type, .returned success)]⟩ := by
  obtain ⟨⟨i, o⟩, hobj, h⟩ := Option.bind_eq_some_iff.mp h
  simp only at h
  split at h
  · rename_i htype
    cases h
    exact reach_alone .init (by simp [Tables.updateAdvance, hobj, htype])
  · rename_i htype
    have htested : Reach updateStep anyAct ⟨t, [(.updateNsobject nsobj handle type, .arrived)]⟩
        ⟨t, [(.updateNsobject nsobj handle type, .tested)]⟩ :=
      reach_alone .init (by simp [Tables.updateAdvance, hobj, htype])
    split at h
    · cases h
    · rename_i hstores
      split at h
      · rename_i hnull
        cases h
        have hexchanged : Reach updateStep anyAct
            ⟨t, [(.updateNsobject nsobj handle type, .arrived)]⟩
            ⟨t.setObj i handle, [(.updateNsobject nsobj handle type, .exchanged)]⟩ :=
          reach_alone htested (by simp [Tables.updateAdvance, hobj, hstores, hnull])
        have hobj' := nsobj_modify (t.setObj i handle) hobj rfl
        exact reach_alone hexchanged (by simp [Tables.updateAdvance, hobj'])
      · rename_i hset
        cases h
        exact reach_alone htested (by simp [Tables.updateAdvance, hobj, hstores, hset])

/-! ### Reservations have no handle -/

/-- A reservation has no handle. -/
def ReservationsEmpty (s : Tables) : Prop :=
  ∀ (i : Nat) o, s.nsobjects[i]? = some o → o.type = .reservation → o.obj = .null

theorem reservationsEmpty_effect {s s' : Tables} {r : Request} {reply : Reply}
    (h : ReservationsEmpty s) (he : Effect s r s' reply) : ReservationsEmpty s' := by
  intro i o ho hres
  cases he with
  | inserted args p space cap =>
    rw [addObject_nsobjects] at ho
    split at ho
    · cases ho
      exact if_pos hres
    · exact h i o ho hres
  | deleted args p j space old =>
    by_cases hij : i = j
    · subst hij
      simp only [removeObject, List.getElem?_modify_eq, Option.map_eq_map, Option.map_eq_some_iff]
        at ho
      obtain ⟨_, -, rfl⟩ := ho
      cases hres
    · rw [removeObject_nsobjects hij] at ho
      exact h i o ho hres
  | updated args j old cap hcap hold hreserved htype =>
    simp only [fillObject, List.getElem?_modify, Option.map_eq_map, Option.map_eq_some_iff] at ho
    obtain ⟨old', hold', rfl⟩ := ho
    split at hres
    · exact absurd hres htype
    · rename_i hne
      rw [if_neg hne]
      exact h i old' hold' hres
  | created args p space parent cap => exact h i o ho hres
  | dropped args j space => exact h i o ho hres
  | _ => exact h i o ho hres

/-- Where reservations have no handle, `coupdate` and `update_nsobject` decide alike, and leave the
same tables. -/
theorem update_paths_agree {s s₁ s₂ : Tables} {args : ObjectArgs} {reply : Reply} {success : Bool}
    (hempty : ∀ i o, s.nsobj (unsealNsobj args.nsobj) = some (i, o) → o.type = .reservation →
      o.obj = .null)
    (h₁ : s.namespaceObjectUpdate args = some (s₁, reply))
    (h₂ : s.updateNsobject args.nsobj args.obj args.nsobjType = some (s₂, success)) :
    reply.isOk = success ∧ s₁ = s₂ := by
  obtain ⟨⟨i, o⟩, hobj, h₂⟩ := Option.bind_eq_some_iff.mp h₂
  have htarget : (unsealNsobj args.nsobj).target ≠ none := by
    obtain ⟨hload, -⟩ := nsobj_eq_some.mp hobj
    simp [(Cap.load_eq_some.mp hload).2.2.2]
  simp only [Tables.namespaceObjectUpdate, htarget, if_false, hobj, Option.bind_eq_bind,
    Option.bind_some] at h₁
  simp only at h₂
  by_cases hres : o.type = .reservation
  · have hnull := hempty i o hobj hres
    simp only [hres, ne_eq, not_true, if_false, hnull, if_true] at h₁ h₂
    split at h₂
    · cases h₂
    · rename_i hstores
      rw [not_not] at hstores
      -- A capability that stores has one of the permissions that `coupdate` asks for.
      have hwrites : Meets (unsealNsobj args.nsobj).perms nsobjPermW :=
        Meets.of_flag hstores.1 (by decide)
      simp only [hwrites, hstores, not_true, if_false] at h₁
      cases h₁
      cases h₂
      exact ⟨rfl, (setType_setObj).symm⟩
  · simp only [hres, ne_eq, not_false_eq_true, if_true] at h₁ h₂
    cases h₂
    split at h₁ <;> cases h₁ <;> exact ⟨rfl, rfl⟩

section Runs
variable {maxNamespaces maxNsobjects : Nat}
  {handles : List UInt8 → Option { handle : NsCap // handle.tag = true }} {t : Tables} {k : Nat}
  {s : Updates}

theorem reservationsEmpty_reach
    (h : Reach Tables.step anyAct (initTables maxNamespaces maxNsobjects handles) t) :
    ReservationsEmpty t := by
  induction h with
  | init =>
    intro i o ho hres
    simp only [initTables, List.getElem?_map, Option.map_eq_some_iff] at ho
    obtain ⟨name, -, rfl⟩ := ho
    cases hname : handles name with
    | none => rfl
    | some handle => simp [hname] at hres
  | next r _ _ hs ih =>
    obtain ⟨⟨t', reply⟩, hhandle, rfl⟩ := Option.map_eq_some_iff.mp hs
    exact reservationsEmpty_effect ih (handle_effect hhandle)

/-- While no update is between the exchange of the handle and the store of the type, a reservation
has no handle. -/
theorem reservation_empty (ht : IsReservation t k) (hinv : (updateSection t k ht).Inv s)
    (hclear : ∀ x ∈ s.threads, x.2 ≠ .exchanged) {o : Nsobject}
    (ho : s.shared.nsobjects[k]? = some o) (hres : o.type = .reservation) : o.obj = .null := by
  have hsame (heq : s.shared = t) : o.obj = .null := by
    obtain ⟨o', ho', -, hnull⟩ := ht
    obtain rfl : o' = o := Option.some.inj (ho'.symm.trans (heq ▸ ho))
    exact hnull
  by_cases hnone : ∀ (r : Nat) x, s.threads[r]? = some x → claimed x.1 x.2 = false
  · exact hsame (hinv.same hnone)
  · simp only [not_forall, Bool.not_eq_false] at hnone
    obtain ⟨r, ⟨u, phase⟩, hr, hin⟩ := hnone
    have hso : UpdatedSoFar t k s.shared u phase := hinv.holds r u phase hr hin
    cases hpending : typePending u phase with
    | true =>
      -- `coupdate` has tested the type, and no more.
      have hno := hclear (u, phase) (List.mem_of_getElem? hr)
      cases phase with
      | tested =>
        cases u with
        | coupdate args => exact hsame hso
        | updateNsobject nsobj handle type => cases hpending
      | exchanged => exact absurd rfl hno
      | _ => cases u <;> cases hpending
    | false =>
      obtain ⟨o', ho', htype⟩ := type_of_claimed ht hin hpending hso
      obtain rfl : o' = o := Option.some.inj (ho'.symm.trans ho)
      exact absurd (htype ▸ hres) ((hinv.fit r u phase hr).fills hin).1

/-- An update was refused only after another one has claimed the reservation. -/
def RefusedAfterClaim (s : Updates) : Prop :=
  ∀ (r : Nat) u phase, s.threads[r]? = some (u, phase) → refused phase = true →
    ∃ (r' : Nat) (u' : Update) (phase' : UpdatePhase),
      s.threads[r']? = some (u', phase') ∧ claimed u' phase' = true

theorem refusedAfterClaim_step {s' : Updates} {act : PoolAct Update} (ht : IsReservation t k)
    (hinv : (updateSection t k ht).Inv s) (hs : updateStep s act = some s')
    (h : RefusedAfterClaim s) : RefusedAfterClaim s' := by
  intro r u phase hr hrefused
  -- A claim before the step is one after it.
  have hkeep (hsome : ∃ (r' : Nat) (u' : Update) (phase' : UpdatePhase),
      s.threads[r']? = some (u', phase') ∧ claimed u' phase' = true) :
      ∃ (r' : Nat) (u' : Update) (phase' : UpdatePhase),
        s'.threads[r']? = some (u', phase') ∧ claimed u' phase' = true := by
    obtain ⟨r', u', phase', hr', hin⟩ := hsome
    obtain ⟨phase'', hr'', hin'⟩ := (updateSection t k ht).entered_step hinv hs hr' hin
    exact ⟨r', u', phase'', hr'', hin'⟩
  apply hkeep
  rcases poolStep_cases hs with ⟨task, rfl, rfl⟩ | ⟨q, task, ph, shared, ph', rfl, hq, hadv, rfl⟩
  · rcases getElem?_concat_cases hr with hr | heq
    · exact h r u phase hr hrefused
    · cases heq
      cases hrefused
  · rcases getElem?_set_cases hr with ⟨-, heq⟩ | ⟨-, hr⟩
    · cases heq
      have htarget : (targetCap u).target = some (.nsobj k) := (hinv.fit q u ph hq).1
      by_contra hnone
      -- Nobody has claimed the reservation, so the update is not refused.
      have hout : ∀ (r : Nat) x, s.threads[r]? = some x → claimed x.1 x.2 = false := by
        intro r' x hr'
        rw [← Bool.not_eq_true]
        intro hin
        exact hnone ⟨r', x.1, x.2, hr', hin⟩
      rw [hinv.same hout] at hadv
      rcases updateAdvance_outside (hout q (u, ph) hq) hadv with ⟨-, -, hwhy⟩ |
        ⟨args, i, o, -, -, -, -, -, rfl⟩ | ⟨nsobj, handle, type, i, o, -, -, -, -, -, rfl⟩
      · obtain ⟨i, o, hobj, hcase⟩ := hwhy hrefused
        obtain ⟨-, ho⟩ := nsobj_targetCap htarget hobj
        obtain ⟨o', ho', hres, hnull⟩ := ht
        obtain rfl : o' = o := Option.some.inj (ho'.symm.trans ho)
        rcases hcase with hne | hne
        · exact hne hres
        · exact hne hnull
      · cases hrefused
      · cases hrefused
    · exact h r u phase hr hrefused

theorem refusedAfterClaim_reach (ht : IsReservation t k)
    (h : Reach updateStep (UpdatedAlone k) ⟨t, []⟩ s) : RefusedAfterClaim s := by
  induction h with
  | init =>
    intro r u phase hr
    cases hr
  | next act hreach hok hs ih =>
    exact refusedAfterClaim_step ht ((updateSection t k ht).reach hreach) hs ih

/-- When no update of a reservation looks for a claim where another one has not left its mark yet,
one update at most succeeds, and the type and the handle are both its own. An update is refused
only after another one has claimed the reservation, and `coupdate` and `update_nsobject` refuse the
same updates, but for the time between the exchange of the handle and the store of the type. -/
theorem reservation_fulfilled_once {o : Nsobject}
    (ht : Reach Tables.step anyAct (initTables maxNamespaces maxNsobjects handles) t)
    (ho : t.nsobjects[k]? = some o) (hres : o.type = .reservation)
    (h : Reach updateStep (UpdatedAlone k) ⟨t, []⟩ s) :
    (∀ (r r' : Nat) u u' phase phase', s.threads[r]? = some (u, phase) →
      s.threads[r']? = some (u', phase') → succeeded phase = true → succeeded phase' = true →
      r = r') ∧
    (∀ (r : Nat) u phase, s.threads[r]? = some (u, phase) → succeeded phase = true →
      ∃ o, s.shared.nsobjects[k]? = some o ∧ o.type = newType u ∧ o.obj = newHandle u) ∧
    RefusedAfterClaim s ∧
    ((∀ x ∈ s.threads, x.2 ≠ .exchanged) →
      ∀ (args : ObjectArgs) s₁ reply s₂ success, args.nsobj.target = some (.nsobj k) →
        s.shared.namespaceObjectUpdate args = some (s₁, reply) →
        s.shared.updateNsobject args.nsobj args.obj args.nsobjType = some (s₂, success) →
        reply.isOk = success ∧ s₁ = s₂) := by
  have hempty := reservationsEmpty_reach ht
  have hreserved : IsReservation t k := ⟨o, ho, hres, hempty k o ho hres⟩
  have hinv := (updateSection t k hreserved).reach h
  refine ⟨?_, ?_, ?_, ?_⟩
  · intro r r' u u' phase phase' hr hr' hdone hdone'
    exact hinv.one r r' _ _ hr hr' (claimed_of_succeeded hdone) (claimed_of_succeeded hdone')
  · intro r u phase hr hdone
    have hso := hinv.holds r u phase hr (claimed_of_succeeded hdone)
    rw [updatedSoFar_succeeded hdone hso]
    exact nsobjects_fillObject hreserved _ _
  · exact refusedAfterClaim_reach hreserved h
  · intro hclear args s₁ reply s₂ success htarget h₁ h₂
    refine update_paths_agree (fun i o' hobj hres' => ?_) h₁ h₂
    obtain ⟨rfl, ho'⟩ := nsobj_targetCap (u := .coupdate args) htarget hobj
    exact reservation_empty hreserved hinv hclear ho' hres'

end Runs

/-! ### Runs of two updates -/

/-- nsd with a reservation of the name `r`, object 6. -/
def reservedTables : Tables := addObject freshTables 0 (insertedObject reservationR)

theorem reach_reservedTables : Reach Tables.step anyAct freshTables reservedTables :=
  .next (.coinsert reservationR) .init trivial (by decide)

/-- nsd's own update of it. -/
def ownUpdateR : Update := .updateNsobject handleR clientHandle .coservice

/-- nsd's update comes first, and the request is refused. -/
theorem reservation_fulfilled_once_own :
    ∃ s, runFrom updateStep ⟨reservedTables, []⟩ [.arrive (.coupdate fulfilR), .arrive ownUpdateR,
        .advance 0, .advance 1, .advance 1, .advance 1, .advance 0] = some s ∧
      s.threads[0]? = some (.coupdate fulfilR, .replied (.err .enodev)) ∧
      ∃ o, s.shared.nsobjects[6]? = some o ∧ o.type = .coservice ∧ o.obj = clientHandle := by
  obtain ⟨s, hs⟩ : ∃ s, runFrom updateStep ⟨reservedTables, []⟩ [.arrive (.coupdate fulfilR),
      .arrive ownUpdateR, .advance 0, .advance 1, .advance 1, .advance 1, .advance 0] = some s :=
    Option.isSome_iff_exists.mp (by decide)
  have hrefused : s.threads[0]?
      = some (Update.coupdate fulfilR, UpdatePhase.replied (.err .enodev)) :=
    eq_of_map_runFrom (fun s => s.threads[0]?) hs (by decide)
  have hdone : s.threads[1]? = some (ownUpdateR, UpdatePhase.returned true) :=
    eq_of_map_runFrom (fun s => s.threads[1]?) hs (by decide)
  have hreach : Reach updateStep (UpdatedAlone 6) ⟨reservedTables, []⟩ s :=
    reach_of_checkAll oneAtATime_of_check _ _ _ (by decide) hs
  obtain ⟨-, hfilled, -⟩ := reservation_fulfilled_once (o := insertedObject reservationR)
    reach_reservedTables (by decide) rfl hreach
  exact ⟨s, hs, hrefused, hfilled 1 ownUpdateR _ hdone rfl⟩

/-- The reservation becomes a memory mapping, with another handle. -/
def commapR : ObjectArgs :=
  { fulfilR with
    nsobjType := .commap
    obj := ⟨true, some (.client 2), 0, some .foreign, 0, by simp⟩ }

/-- Two requests both pass the test, and both succeed. The object has the type of the second one
and the handle of the first one. -/
theorem reservation_fulfilled_twice :
    ∃ s : Updates, Reach updateStep anyAct ⟨reservedTables, []⟩ s ∧
      s.threads = [(.coupdate fulfilR, .replied (.ok handleA)),
        (.coupdate commapR, .replied (.ok handleA))] ∧
      s.shared.nsobjects[6]?.map (fun o => (o.type, o.obj)) = some (.commap, clientHandle) := by
  obtain ⟨s, hs⟩ : ∃ s, runFrom updateStep ⟨reservedTables, []⟩ [.arrive (.coupdate fulfilR),
      .arrive (.coupdate commapR), .advance 0, .advance 1, .advance 0, .advance 1, .advance 0,
      .advance 1, .advance 1, .advance 0] = some s := Option.isSome_iff_exists.mp (by decide)
  exact ⟨s, reach_of_runFrom _ _ _ hs, eq_of_map_runFrom Pool.threads hs (by decide),
    eq_of_map_runFrom (fun s => s.shared.nsobjects[6]?.map (fun o => (o.type, o.obj))) hs
      (by decide)⟩

end Comsg.Proofs.Nsd
