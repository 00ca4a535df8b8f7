import Comsg.Proofs.Libcomsg.UkernCalls
import Mathlib.Data.List.Nodup
import Mathlib.Data.Nat.ModEq

/-!
# `Comsg.Proofs.Libcomsg.BusyWorkers`: what a call does when workers are busy

A worker that serves another call lets a cocall fail with `EBUSY`. `call_ukern_service` then asks
`codiscover2` for another SCB. It does so twice at most: after the second failure it compares the
two SCBs that it has got, and returns the failure in any case. So the workers of a service that it
tries are the one whose SCB the thread has and the next one in turn
(`busy_worker_replaced_iff`). When both are busy, it fails whoever else is idle. And `errno` is
`EBUSY` then only if the service has one worker (`ebusy_all_tried`), since the second call of
`codiscover2` has cleared it.
-/

set_option autoImplicit false

namespace Comsg.Proofs.Libcomsg

open Comsg.Lib
open Comsg.Lib.Fueled
open Comsg.Libcomsg

/-- The workers as a caller sees them: the SCBs handed out so far, the cocalls so far, and the SCBs
that were busy. -/
structure Ring where
  next : Nat
  time : Nat
  foundBusy : List WorkerScb
  deriving DecidableEq

/-- A service with the workers of a list. `busy` says who is busy at which time. A worker that is
not answers. -/
structure Workers where
  scbs : List WorkerScb
  busy : Nat → WorkerScb → Bool
  service : UkernService
  answer : WorkerScb → UkernRequest → UkernReply
  nodup : scbs.Nodup
  length_pos : 0 < scbs.length

namespace Workers

/-- The SCB whose turn it is. -/
def turn (w : Workers) (k : Nat) : WorkerScb :=
  w.scbs.get ⟨k % w.scbs.length, Nat.mod_lt k w.length_pos⟩

/-- What an idle worker answers. `codiscover` and `codiscover2` hand out the SCBs in turn. -/
def reply (w : Workers) (env : Ring) (scb : WorkerScb) : UkernRequest → UkernReply
  | .coselect name => ⟨none, some ⟨name, some w.service⟩, none, none, 0⟩
  | .codiscover _  => ⟨none, none, some w.service, some (w.turn env.next), 0⟩
  | .codiscover2 _ => ⟨none, none, none, some (w.turn env.next), 0⟩
  | r              => w.answer scb r

/-- The environment after an answer. -/
def served (env : Ring) : UkernRequest → Ring
  | .codiscover _  => { env with next := env.next + 1, time := env.time + 1 }
  | .codiscover2 _ => { env with next := env.next + 1, time := env.time + 1 }
  | _              => { env with time := env.time + 1 }

/-- A cocall. -/
def cocall (w : Workers) (env : Ring) (c : TargetedCall) : CallOutcome × Ring :=
  if w.busy env.time c.scb then
    (.failed .ebusy, { env with time := env.time + 1, foundBusy := env.foundBusy ++ [c.scb] })
  else (.returned (w.reply env c.scb c.request), served env c.request)

theorem turn_mem (w : Workers) (k : Nat) : w.turn k ∈ w.scbs := List.get_mem _ _

/-- Two SCBs in a row are the same only if there is no other. -/
theorem eq_turn_of_turn_succ_eq {w : Workers} {k : Nat} (h : w.turn (k + 1) = w.turn k)
    {x : WorkerScb} (hx : x ∈ w.scbs) : x = w.turn k := by
  have hindex : (k + 1) % w.scbs.length = k % w.scbs.length :=
    congrArg Fin.val (List.Nodup.get_inj_iff w.nodup |>.mp h)
  -- The places are congruent, so the number of SCBs divides 1.
  have hmod : Nat.ModEq w.scbs.length 1 0 := Nat.ModEq.add_left_cancel' k hindex
  have hone : w.scbs.length = 1 := Nat.dvd_one.mp (Nat.modEq_zero_iff_dvd.mp hmod)
  obtain ⟨y, hy⟩ := List.length_eq_one_iff.mp hone
  have hturn := w.turn_mem k
  rw [hy, List.mem_singleton] at hx hturn
  rw [hx, hturn]

end Workers

/-- A worker that is idle all the time. -/
def Idle (w : Workers) (scb : WorkerScb) : Prop := ∀ time, w.busy time scb = false

/-- The thread has an SCB for the function, of a worker that is idle. -/
def HasIdle (w : Workers) (t : Thread Ring) (func : CocallNum) : Prop :=
  ∃ scb, t.targets func = some scb ∧ Idle w scb

/-- The calls that find a replacement are answered: `codiscover2`, and `coselect` and `codiscover`
if the service is not known. -/
structure Replaceable (w : Workers) (func : CocallNum) (t : Thread Ring) : Prop where
  codiscover2 : HasIdle w t .codiscover2
  known : t.services func ≠ none ∨ (HasIdle w t .coselect ∧ HasIdle w t .codiscover)

/-- The cocalls for a replacement. -/
def replaceTime (func : CocallNum) (t : Thread Ring) : Nat :=
  if t.services func = none then 2 else 1

/-- The thread, with the SCB whose turn it is. -/
structure Replaced (w : Workers) (func : CocallNum) (t t' : Thread Ring) : Prop where
  target : t'.targets func = some (w.turn t.env.next)
  other : ∀ f, f ≠ func → t'.targets f = t.targets f
  service : t'.services func ≠ none
  errno : t'.errno = .clear
  env : t'.env = ⟨t.env.next + 1, t.env.time + replaceTime func t, t.env.foundBusy⟩

/-- The thread after a cocall to a busy worker. -/
def afterBusy (t : Thread Ring) (scb : WorkerScb) : Thread Ring :=
  { t with
    errno := .ebusy
    env := ⟨t.env.next, t.env.time + 1, t.env.foundBusy ++ [scb]⟩ }

section Calls
variable {w : Workers} {t t' : Thread Ring} {r : UkernRequest} {scb : WorkerScb}
  {func : CocallNum}

/-- A cocall to a busy worker. -/
theorem callUkernTarget_busy (hscb : t.targets r.func = some scb)
    (hbusy : w.busy t.env.time scb = true) :
    callUkernTarget w.cocall r t = .done none (afterBusy t scb) := by
  simp [callUkernTarget, hscb, Workers.cocall, hbusy, afterBusy]

/-- A cocall to an idle one. -/
theorem callUkernTarget_idle (hscb : t.targets r.func = some scb)
    (hidle : w.busy t.env.time scb = false) :
    callUkernTarget w.cocall r t = .done (some (w.reply t.env scb r))
      { t with errno := .clear, env := Workers.served t.env r } := by
  simp [callUkernTarget, hscb, Workers.cocall, hidle]

theorem ukernCall_idle (h : HasIdle w t r.func) (fuel : Nat) :
    ∃ scb, ukernCall w.cocall (fuel + 2) r t = .done (some (w.reply t.env scb r))
      { t with errno := .clear, env := Workers.served t.env r } := by
  obtain ⟨scb, hscb, hidle⟩ := h
  exact ⟨scb, ukernCall_reply (by simp [hscb]) (callUkernTarget_idle hscb (hidle _)) fuel⟩

/-- With too little fuel, nothing is found. -/
theorem ukernCall_one (h : HasIdle w t r.func) : ukernCall w.cocall 1 r t = .stuck := by
  obtain ⟨scb, hscb, -⟩ := h
  rw [ukernCall, ukernCallBody_target (by simp [hscb])]
  rfl

theorem codiscover2_turn {s : UkernService} (h : HasIdle w t .codiscover2) (fuel : Nat) :
    codiscover2 (ukernCall w.cocall (fuel + 2)) s t = .done (some (w.turn t.env.next))
      { t with
        errno := .clear
        env := ⟨t.env.next + 1, t.env.time + 1, t.env.foundBusy⟩ } := by
  have hfunc : HasIdle w t (UkernRequest.codiscover2 s).func := h
  obtain ⟨scb, hcall⟩ := ukernCall_idle hfunc fuel
  unfold codiscover2
  rw [bind_done hcall]
  rfl

theorem codiscover_turn {obj : ServiceObject} (h : HasIdle w t .codiscover) (fuel : Nat) :
    codiscover (ukernCall w.cocall (fuel + 2)) obj t =
      .done (some w.service, some (w.turn t.env.next))
        { t with
          errno := .clear
          env := ⟨t.env.next + 1, t.env.time + 1, t.env.foundBusy⟩ } := by
  have hfunc : HasIdle w t (UkernRequest.codiscover obj).func := h
  obtain ⟨scb, hcall⟩ := ukernCall_idle hfunc fuel
  unfold codiscover
  rw [bind_done hcall]
  rfl

theorem coselect_service (h : HasIdle w t .coselect) (fuel : Nat) :
    coselect (ukernCall w.cocall (fuel + 2)) func t =
      .done (some ⟨func, some w.service⟩)
        { t with
          errno := .clear
          env := { t.env with time := t.env.time + 1 } } := by
  have hfunc : HasIdle w t (UkernRequest.coselect func).func := h
  obtain ⟨scb, hcall⟩ := ukernCall_idle hfunc fuel
  unfold coselect
  rw [bind_done hcall]
  rfl

/-- `refresh_target_scb` for a service that is known. -/
theorem refreshTargetScb_turn (hs : t.services func ≠ none) (h : HasIdle w t .codiscover2)
    (fuel : Nat) :
    ∃ t', refreshTargetScb (ukernCall w.cocall (fuel + 2)) func t =
      .done (some (w.turn t.env.next)) t' ∧ Replaced w func t t' := by
  obtain ⟨s, hs⟩ := Option.ne_none_iff_exists'.mp hs
  unfold refreshTargetScb
  rw [Fueled.get_bind, hs]
  simp only
  rw [bind_done (codiscover2_turn h fuel)]
  refine ⟨_, rfl, setUkernTarget_targets _, ?_, ?_, rfl, ?_⟩
  · intro f hf
    exact Function.update_of_ne hf _ _
  · show t.services func ≠ none
    simp [hs]
  · simp [Thread.setUkernTarget, replaceTime, hs]

/-- `refresh_target_scb` for one that is not. -/
theorem refreshTargetScb_select (hs : t.services func = none) (hselect : HasIdle w t .coselect)
    (hdiscover : HasIdle w t .codiscover) (fuel : Nat) :
    ∃ t', refreshTargetScb (ukernCall w.cocall (fuel + 2)) func t =
      .done (some (w.turn t.env.next)) t' ∧ Replaced w func t t' := by
  let t₁ : Thread Ring := { t with
    errno := .clear
    env := { t.env with time := t.env.time + 1 }
    services := Function.update t.services func (some w.service) }
  let t₂ : Thread Ring := { t₁ with env := ⟨t.env.next + 1, t.env.time + 2, t.env.foundBusy⟩ }
  -- `coselect` finds the service, and `codiscover` an SCB in turn.
  have hget : getUkernelService (ukernCall w.cocall (fuel + 2)) func t =
      .done () (t₂.setUkernTarget func (some (w.turn t.env.next))) := by
    have hdiscover' : HasIdle w t₁ .codiscover := hdiscover
    unfold getUkernelService
    rw [Fueled.get_bind, hs]
    simp only
    rw [bind_done (coselect_service hselect fuel)]
    simp only [Fueled.modify_bind, hs, if_true]
    exact bind_done (codiscover_turn hdiscover' fuel)
  unfold refreshTargetScb
  rw [Fueled.get_bind, hs]
  simp only
  rw [bind_done hget, Fueled.get_bind, setUkernTarget_targets]
  refine ⟨_, rfl, setUkernTarget_targets _, ?_, ?_, rfl, ?_⟩
  · intro f hf
    exact Function.update_of_ne hf _ _
  · show Function.update t.services func (some w.service) func ≠ none
    simp
  · simp [Thread.setUkernTarget, replaceTime, hs, t₂]

/-- `refresh_target_scb`. -/
theorem refreshTargetScb_replaced (h : Replaceable w func t) (fuel : Nat) :
    ∃ t', refreshTargetScb (ukernCall w.cocall (fuel + 2)) func t =
      .done (some (w.turn t.env.next)) t' ∧ Replaced w func t t' := by
  by_cases hs : t.services func = none
  · obtain ⟨hselect, hdiscover⟩ := h.known.resolve_left (not_not.mpr hs)
    exact refreshTargetScb_select hs hselect hdiscover fuel
  · exact refreshTargetScb_turn hs h.codiscover2 fuel

theorem refreshTargetScb_one (h : Replaceable w func t) :
    refreshTargetScb (ukernCall w.cocall 1) func t = .stuck := by
  unfold refreshTargetScb
  rw [Fueled.get_bind]
  cases hs : t.services func with
  | none =>
    obtain ⟨hselect, -⟩ := h.known.resolve_left (not_not.mpr hs)
    have hfunc : HasIdle w t (UkernRequest.coselect func).func := hselect
    exact bind_stuck (getUkernelService_stuck hs (ukernCall_one hfunc))
  | some s =>
    have hfunc : HasIdle w t (UkernRequest.codiscover2 s).func := h.codiscover2
    exact bind_stuck (bind_stuck (ukernCall_one hfunc))

/-- A thread whose worker is busy can find another one afterwards. -/
theorem Replaced.replaceable (h : Replaced w func t t') (hne : func ≠ .codiscover2)
    (hd : HasIdle w t .codiscover2) : Replaceable w func t' := by
  refine ⟨?_, .inl h.service⟩
  obtain ⟨scb, hscb, hidle⟩ := hd
  exact ⟨scb, by rw [h.other _ hne.symm, hscb], hidle⟩

/-! ### The loop -/

/-- `call_ukern_service`, with the same fuel for the loop and for the calls in it. -/
def serve (w : Workers) (r : UkernRequest) (t : Thread Ring) (fuel : Nat) :
    FuelResult (Thread Ring) (Option UkernReply) :=
  callUkernService w.cocall (ukernCall w.cocall fuel) r fuel none t

/-- The time of the second cocall. -/
def secondTime (func : CocallNum) (t : Thread Ring) : Nat := t.env.time + 1 + replaceTime func t

theorem serve_first {fuel : Nat} (hscb : t.targets r.func = some scb)
    (hidle : w.busy t.env.time scb = false) :
    serve w r t (fuel + 1) = .done (some (w.reply t.env scb r))
      { t with errno := .clear, env := Workers.served t.env r } :=
  callUkernService_reply (callUkernTarget_idle hscb hidle) fuel none

theorem serve_one (hscb : t.targets r.func = some scb) (hbusy : w.busy t.env.time scb = true)
    (h : Replaceable w r.func t) : serve w r t 1 = .stuck := by
  have hafter : Replaceable w r.func (afterBusy t scb) := ⟨h.codiscover2, h.known⟩
  unfold serve
  rw [callUkernService_busy (callUkernTarget_busy hscb hbusy)]
  exact bind_stuck (refreshTargetScb_one hafter)

/-- The second cocall goes to the worker whose turn it is. -/
theorem serve_busy (hscb : t.targets r.func = some scb) (hbusy : w.busy t.env.time scb = true)
    (h : Replaceable w r.func t) (fuel : Nat) :
    ∃ t', Replaced w r.func (afterBusy t scb) t' ∧
      serve w r t (fuel + 2) = callUkernService w.cocall (ukernCall w.cocall (fuel + 2)) r
        (fuel + 1) (some (w.turn t.env.next)) t' := by
  have hafter : Replaceable w r.func (afterBusy t scb) := ⟨h.codiscover2, h.known⟩
  obtain ⟨t', heq, hreplaced⟩ := refreshTargetScb_replaced hafter fuel
  refine ⟨t', hreplaced, ?_⟩
  unfold serve
  rw [callUkernService_busy (callUkernTarget_busy hscb hbusy)]
  exact bind_done heq

theorem serve_second (hscb : t.targets r.func = some scb) (hbusy : w.busy t.env.time scb = true)
    (h : Replaceable w r.func t)
    (hidle : w.busy (secondTime r.func t) (w.turn t.env.next) = false) (fuel : Nat) :
    ∃ env t', env.time = secondTime r.func t ∧
      serve w r t (fuel + 2) = .done (some (w.reply env (w.turn t.env.next) r)) t' := by
  obtain ⟨t', hreplaced, heq⟩ := serve_busy hscb hbusy h fuel
  have htime : t'.env.time = secondTime r.func t := by
    rw [hreplaced.env]
    rfl
  rw [← htime] at hidle
  have hreply : callUkernService w.cocall (ukernCall w.cocall (fuel + 2)) r (fuel + 1)
      (some (w.turn t.env.next)) t' = _ :=
    callUkernService_reply (callUkernTarget_idle hreplaced.target hidle) fuel _
  exact ⟨t'.env, _, htime, heq.trans hreply⟩

/-- The loop, when it has a replacement that is busy too. -/
theorem callUkernService_twice {call : UkernRequest → Ukern Ring (Option UkernReply)}
    {t'' : Thread Ring} {new : Option WorkerScb} {fuel : Nat}
    (h : callUkernTarget w.cocall r t = .done none t') (hbusy : t'.errno = .ebusy)
    (hnew : refreshTargetScb call r.func t' = .done new t'') :
    callUkernService w.cocall call r (fuel + 1) (some scb) t =
      .done none (if new = some scb then { t'' with errno := .ebusy } else t'') := by
  rw [callUkernService, bind_done h]
  simp only [Fueled.get_bind, hbusy, if_true]
  rw [bind_done hnew]
  split <;> rfl

/-- When the second worker is busy too, the call fails. -/
theorem serve_fails (hscb : t.targets r.func = some scb) (hbusy : w.busy t.env.time scb = true)
    (h : Replaceable w r.func t)
    (hbusy' : w.busy (secondTime r.func t) (w.turn t.env.next) = true) (fuel : Nat) :
    ∃ t', serve w r t (fuel + 2) = .done none t' ∧
      t'.env.foundBusy = t.env.foundBusy ++ [scb, w.turn t.env.next] ∧
      (t'.errno = .ebusy → w.turn (t.env.next + 1) = w.turn t.env.next) := by
  obtain ⟨t₁, hreplaced, heq⟩ := serve_busy hscb hbusy h fuel
  have htime : t₁.env.time = secondTime r.func t := by
    rw [hreplaced.env]
    rfl
  -- A worker of `CODISCOVER2` is never busy here.
  have hne : r.func ≠ .codiscover2 := by
    intro hfunc
    obtain ⟨d, hd, hidle⟩ := h.codiscover2
    rw [← hfunc, hscb, Option.some.injEq] at hd
    rw [hd, hidle] at hbusy
    cases hbusy
  -- The service is known by now, and the SCB for `CODISCOVER2` was not touched.
  have hagain : Replaceable w r.func (afterBusy t₁ (w.turn t.env.next)) := by
    have hrepl := hreplaced.replaceable hne h.codiscover2
    exact ⟨hrepl.codiscover2, hrepl.known⟩
  obtain ⟨t₂, heq₂, hreplaced₂⟩ := refreshTargetScb_replaced hagain fuel
  have hnext : (afterBusy t₁ (w.turn t.env.next)).env.next = t.env.next + 1 := by
    show t₁.env.next = _
    rw [hreplaced.env]
    rfl
  have hfound : t₂.env.foundBusy = t.env.foundBusy ++ [scb, w.turn t.env.next] := by
    rw [hreplaced₂.env]
    simp [afterBusy, hreplaced.env]
  rw [hnext] at heq₂
  rw [← htime] at hbusy'
  rw [heq, callUkernService_twice (callUkernTarget_busy hreplaced.target hbusy') rfl heq₂]
  refine ⟨_, rfl, ?_⟩
  -- `errno` is set only if the two replacements are one SCB.
  by_cases hturn : w.turn (t.env.next + 1) = w.turn t.env.next
  · rw [hturn, if_pos rfl]
    exact ⟨hfound, fun _ => rfl⟩
  · rw [if_neg (by simpa using hturn)]
    refine ⟨hfound, ?_⟩
    intro herrno
    rw [hreplaced₂.errno] at herrno
    cases herrno

/-- `EBUSY` comes back only after every worker was found busy. -/
theorem ebusy_all_tried {fuel : Nat} (hscb : t.targets r.func = some scb)
    (h : Replaceable w r.func t) (heq : serve w r t fuel = .done none t')
    (herrno : t'.errno = .ebusy) :
    ∃ tried, t'.env.foundBusy = t.env.foundBusy ++ tried ∧ ∀ x ∈ w.scbs, x ∈ tried := by
  match fuel with
  | 0 => cases heq
  | fuel + 1 =>
    cases hbusy : w.busy t.env.time scb with
    | false =>
      rw [serve_first hscb hbusy] at heq
      cases heq
    | true =>
      match fuel with
      | 0 =>
        rw [serve_one hscb hbusy h] at heq
        cases heq
      | fuel + 1 =>
        cases hbusy' : w.busy (secondTime r.func t) (w.turn t.env.next) with
        | false =>
          obtain ⟨env, t₁, -, heq'⟩ := serve_second hscb hbusy h hbusy' fuel
          rw [heq'] at heq
          cases heq
        | true =>
          obtain ⟨t₁, heq', hfound, hturn⟩ := serve_fails hscb hbusy h hbusy' fuel
          rw [heq'] at heq
          cases heq
          refine ⟨_, hfound, ?_⟩
          intro x hx
          rw [Workers.eq_turn_of_turn_succ_eq (hturn herrno) hx]
          simp

/-- The call returns what a worker of the service answers that is idle. -/
def RepliesIdle (w : Workers) (r : UkernRequest) (t : Thread Ring) : Prop :=
  ∃ fuel scb env t', scb ∈ w.scbs ∧ w.busy env.time scb = false ∧
    serve w r t fuel = .done (some (w.reply env scb r)) t'

theorem repliesIdle_iff (hscb : t.targets r.func = some scb) (hmem : scb ∈ w.scbs)
    (h : Replaceable w r.func t) :
    RepliesIdle w r t ↔ w.busy t.env.time scb = false ∨
      w.busy (secondTime r.func t) (w.turn t.env.next) = false := by
  constructor
  · rintro ⟨fuel, x, env, t', -, -, heq⟩
    by_contra hno
    rw [not_or, Bool.not_eq_false, Bool.not_eq_false] at hno
    obtain ⟨hbusy, hbusy'⟩ := hno
    match fuel with
    | 0 => cases heq
    | 1 =>
      rw [serve_one hscb hbusy h] at heq
      cases heq
    | fuel + 2 =>
      obtain ⟨t₁, heq', -, -⟩ := serve_fails hscb hbusy h hbusy' fuel
      rw [heq'] at heq
      cases heq
  · rintro hidle
    cases hbusy : w.busy t.env.time scb with
    | false => exact ⟨1, scb, t.env, _, hmem, hbusy, serve_first hscb hbusy⟩
    | true =>
      have hidle' := hidle.resolve_left (by simp [hbusy])
      obtain ⟨env, t', htime, heq⟩ := serve_second hscb hbusy h hidle' 0
      exact ⟨2, w.turn t.env.next, env, t', w.turn_mem _, by rw [htime, hidle'], heq⟩

/-- A worker of the service stays idle. -/
def OneIdle (w : Workers) : Prop := ∃ scb ∈ w.scbs, Idle w scb

/-- For a service whose SCBs are handed out in turn: `call_ukern_service` returns an idle worker's
reply if one stays idle, and `EBUSY` only after every worker was found busy, if and only if none
stays idle, or the worker whose SCB the thread has is idle, or the one whose turn it is when it is
called. -/
theorem busy_worker_replaced_iff (hscb : t.targets r.func = some scb) (hmem : scb ∈ w.scbs)
    (h : Replaceable w r.func t) :
    ((OneIdle w → RepliesIdle w r t) ∧
      ∀ fuel t', serve w r t fuel = .done none t' → t'.errno = .ebusy →
        ∃ tried, t'.env.foundBusy = t.env.foundBusy ++ tried ∧ ∀ x ∈ w.scbs, x ∈ tried) ↔
      (OneIdle w → w.busy t.env.time scb = false ∨
        w.busy (secondTime r.func t) (w.turn t.env.next) = false) := by
  rw [← repliesIdle_iff hscb hmem h]
  constructor
  · exact And.left
  · intro hreplies
    exact ⟨hreplies, fun fuel t' heq herrno => ebusy_all_tried hscb h heq herrno⟩

end Calls

/-- Three workers, of which those of a list are busy. -/
def threeWorkers (busy : List WorkerScb) : Workers where
  scbs := [10, 11, 12]
  busy _ scb := busy.contains scb
  service := ⟨0, 0, false⟩
  answer scb _ := ⟨none, none, none, none, scb⟩
  nodup := by decide
  length_pos := by decide

/-- A thread that has got the first SCB. -/
def coopenThread : Thread Ring where
  targets
    | .codiscover2 => some 20
    | .coopen      => some 10
    | _            => none
  globals _ := none
  services _ := some ⟨0, 0, false⟩
  errno := .clear
  env := ⟨1, 0, []⟩

theorem replaceable_coopenThread {busy : List WorkerScb} (h : busy.contains 20 = false) :
    Replaceable (threeWorkers busy) .coopen coopenThread :=
  ⟨⟨20, rfl, fun _ => h⟩, .inl (Option.some_ne_none _)⟩

/-- When the first worker is busy, the second one answers. -/
theorem busy_worker_replaced_iff_first :
    OneIdle (threeWorkers [10]) ∧ RepliesIdle (threeWorkers [10]) coopenRequest coopenThread := by
  have hidle : OneIdle (threeWorkers [10]) := ⟨12, by decide, fun _ => rfl⟩
  have hiff := busy_worker_replaced_iff (r := coopenRequest) (t := coopenThread) rfl
    (by decide : 10 ∈ (threeWorkers [10]).scbs) (replaceable_coopenThread rfl)
  exact ⟨hidle, (hiff.mpr fun _ => .inr rfl).1 hidle⟩

/-- When the first two are busy, the call fails, though the third one is idle. -/
theorem third_worker_not_tried :
    OneIdle (threeWorkers [10, 11]) ∧
      ¬RepliesIdle (threeWorkers [10, 11]) coopenRequest coopenThread := by
  refine ⟨⟨12, by decide, fun _ => rfl⟩, ?_⟩
  rw [repliesIdle_iff (r := coopenRequest) (t := coopenThread) rfl
    (by decide : 10 ∈ (threeWorkers [10, 11]).scbs) (replaceable_coopenThread rfl)]
  decide

end Comsg.Proofs.Libcomsg
