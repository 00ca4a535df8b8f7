import Comsg.Lib.FuelSame
import Comsg.Proofs.Ukernel.Wiring

/-!
# `Comsg.Proofs.Ukernel.Routing`: every call gets to its function

The tables of a thread hold SCBs and services that it has got by calls to the microkernel, and these
calls use the tables themselves.

* `Routed`: the tables of a thread fit the microkernel. Each function of `ukern_calls.c` keeps that
  (`After`), and makes only cocalls for which `Reaches` holds. So it comes to the same as with any
  other kernel that agrees on these (`routed_ukernCall`).
* `calls_reach_functions`: in a process, from its start on.
-/

set_option autoImplicit false

namespace Comsg.Proofs.Ukernel

open Comsg.Lib
open Comsg.Lib.Fueled
open Comsg.Libcomsg
open Comsg.Ukernel

/-- The tables of the thread fit the microkernel. -/
structure Routed (t : Thread Env) : Prop where
  wired : Wired t.env.ukernel
  targets : ∀ func scb, t.targets func = some scb → ScbRight t.env.ukernel func scb
  globals : ∀ func scb, t.globals func = some scb → ScbRight t.env.ukernel func scb
  services : ∀ func s, t.services func = some s → ServiceRight t.env.ukernel func s
  slow : t.targets .slopoll ≠ none → t.services .slopoll ≠ none

/-- What holds after a function of `ukern_calls.c`. -/
structure After (t t' : Thread Env) : Prop where
  routed : Routed t'
  grows : Grows t.env.ukernel t'.env.ukernel
  known : ∀ func, t.services func ≠ none → t'.services func ≠ none

/-- The kernels agree where a cocall gets to its function. -/
def Agree (w : World) (cocall : Env → TargetedCall → CallOutcome × Env) : Prop :=
  ∀ env c, Reaches env.ukernel c → cocall env c = Microkernel.cocall w env c

section
variable {t t' t'' : Thread Env} {func : CocallNum} {w : World}

theorem After.refl (h : Routed t) : After t t := ⟨h, .refl _, fun _ => id⟩

theorem After.trans (h : After t t') (h' : After t' t'') : After t t'' :=
  ⟨h'.routed, h.grows.trans h'.grows, fun f hf => h'.known f (h.known f hf)⟩

theorem Routed.setErrno (h : Routed t) (errno : CallErrno) : After t { t with errno } :=
  ⟨⟨h.wired, h.targets, h.globals, h.services, h.slow⟩, .refl _, fun _ => id⟩

/-- A right SCB may be put into the tables. -/
theorem Routed.setUkernTarget (h : Routed t) {scb : Option WorkerScb}
    (hright : ∀ x, scb = some x → ScbRight t.env.ukernel func x)
    (hslow : func = .slopoll → t.services .slopoll ≠ none) :
    After t (t.setUkernTarget func scb) := by
  have hput : ∀ table : CocallNum → Option WorkerScb,
      (∀ f x, table f = some x → ScbRight t.env.ukernel f x) →
        ∀ f x, Function.update table func scb f = some x → ScbRight t.env.ukernel f x := by
    intro table htable f x hx
    by_cases hf : f = func
    · subst hf
      rw [Function.update_self] at hx
      exact hright x hx
    · rw [Function.update_of_ne hf] at hx
      exact htable f x hx
  refine ⟨⟨h.wired, hput t.targets h.targets, fun f x hx => ?_, h.services, fun htarget => ?_⟩,
    .refl _, fun _ => id⟩
  · simp only [Thread.setUkernTarget] at hx
    split at hx
    · exact hput t.globals h.globals f x hx
    · exact h.globals f x hx
  · by_cases hf : func = .slopoll
    · exact hslow hf
    · refine h.slow ?_
      have hsame : (t.setUkernTarget func scb).targets .slopoll = t.targets .slopoll :=
        Function.update_of_ne (Ne.symm hf) _ _
      rw [← hsame]
      exact htarget

theorem Routed.adoptCodiscover (h : Routed t) : After t t.adoptCodiscover := by
  unfold Thread.adoptCodiscover
  split
  · exact h.setUkernTarget (h.globals .codiscover) fun hf => by cases hf
  · exact .refl h

/-- A right service may be put into the table, where there is none yet. -/
theorem Routed.setService (h : Routed t) {s : Option UkernService}
    (hright : ∀ x, s = some x → ServiceRight t.env.ukernel func x) :
    After t (if t.services func = none then
      { t with services := Function.update t.services func s } else t) ∧
    (s ≠ none → (if t.services func = none then
      { t with services := Function.update t.services func s } else t).services func ≠ none) := by
  split
  next hnone =>
    have hknown : ∀ f, t.services f ≠ none → Function.update t.services func s f ≠ none := by
      intro f hf
      have hne : f ≠ func := by
        rintro rfl
        exact hf hnone
      rwa [Function.update_of_ne hne]
    have hself : Function.update t.services func s func = s := Function.update_self ..
    refine ⟨⟨⟨h.wired, h.targets, h.globals, fun f x hx => ?_, fun htarget =>
      hknown _ (h.slow htarget)⟩, .refl _, hknown⟩, fun hs => hself.trans_ne hs⟩
    by_cases hf : f = func
    · subst hf
      exact hright x (hself.symm.trans hx)
    · have hother : Function.update t.services func s f = t.services f :=
        Function.update_of_ne hf _ _
      exact h.services f x (hother.symm.trans hx)
  next hsome => exact ⟨.refl h, fun _ => hsome⟩

/-! ### The functions of `ukern_calls.c` -/

/-- The cocall of `call_ukern_target` to the worker `scb`. -/
def targetedCall (t : Thread Env) (r : UkernRequest) (scb : WorkerScb) : TargetedCall :=
  ⟨scb, ((t.services r.func).map UkernService.op).getD r.func.value,
    (t.services r.func).any UkernService.slowpath, r⟩

/-- What `call_ukern_target` makes of the outcome. -/
def settled (t : Thread Env) (env : Env) :
    CallOutcome → FuelResult (Thread Env) (Option UkernReply)
  | .failed errno   => .done none { t with errno := errno, env := env }
  | .returned reply => .done (some reply) { t with errno := .clear, env := env }

theorem callUkernTarget_of_target {cocall : Env → TargetedCall → CallOutcome × Env}
    {r : UkernRequest} {scb : WorkerScb} {outcome : CallOutcome} {env : Env}
    (htarget : t.targets r.func = some scb)
    (hcall : cocall t.env (targetedCall t r scb) = (outcome, env)) :
    callUkernTarget cocall r t = settled t env outcome := by
  unfold targetedCall at hcall
  cases hservice : t.services r.func <;> rw [hservice] at hcall <;>
    simp only [Option.map_none, Option.map_some, Option.getD_none, Option.getD_some] at hcall <;>
    cases outcome <;> simp only [callUkernTarget, htarget, hservice, hcall, settled]

/-- A cocall that a thread makes through its tables gets to the function. -/
theorem Routed.reaches (h : Routed t) {r : UkernRequest} {scb : WorkerScb}
    (htarget : t.targets r.func = some scb) :
    Reaches t.env.ukernel (targetedCall t r scb) := by
  obtain ⟨d, handler, hworker, hmem⟩ := h.targets _ _ htarget
  cases hservice : t.services r.func with
  | some s =>
    obtain ⟨hop, hslow, -⟩ := h.services _ s hservice
    have hcall : targetedCall t r scb = ⟨scb, r.func.value, slowFunc r.func, r⟩ := by
      rw [targetedCall, hservice, ← hop, ← hslow]
      rfl
    rw [hcall]
    exact ⟨d, handler, hworker, coacceptHandler_eq hmem, hmem⟩
  | none =>
    -- The slow path is taken only with a service, and `SLOPOLL` has an SCB only with a service.
    have hfast : slowFunc r.func = false := by
      by_contra hslow
      have hfunc : r.func = .slopoll := slowFunc_iff.mp (by simpa using hslow)
      rw [hfunc] at htarget hservice
      exact h.slow (by rw [htarget]; exact Option.some_ne_none _) hservice
    have hcall : targetedCall t r scb = ⟨scb, r.func.value, false, r⟩ := by
      rw [targetedCall, hservice]
      rfl
    rw [hfast] at hworker hmem
    rw [hcall]
    exact ⟨d, handler, hworker, coacceptHandler_eq hmem, hmem⟩

/-- A call is made right, and an answer is right. -/
def Right (w : World) (t : Thread Env) (r : UkernRequest)
    (x y : Ukern Env (Option UkernReply)) : Prop :=
  Same x y t fun a t' => After t t' ∧ ∀ reply, a = some reply → ReplyRight w t'.env.ukernel r reply

theorem right_callUkernTarget {cocall : Env → TargetedCall → CallOutcome × Env}
    (hagree : Agree w cocall) (h : Routed t) (r : UkernRequest) :
    Right w t r (callUkernTarget cocall r) (callUkernTarget (Microkernel.cocall w) r) := by
  cases htarget : t.targets r.func with
  | none =>
    have hnone : ∀ f : Env → TargetedCall → CallOutcome × Env,
        callUkernTarget f r t = .done none { t with errno := .enotconn } := by
      intro f
      simp only [callUkernTarget, htarget]
    refine ⟨(hnone _).trans (hnone _).symm, fun a t' hdone => ?_⟩
    rw [hnone] at hdone
    cases hdone
    exact ⟨h.setErrno _, fun reply hreply => by cases hreply⟩
  | some scb =>
    have hreaches := h.reaches htarget
    obtain ⟨hwired, hgrows, hreply⟩ := cocall_right w h.wired hreaches
    have hsame := hagree t.env _ hreaches
    generalize hres : Microkernel.cocall w t.env (targetedCall t r scb) = res
      at hwired hgrows hreply hsame
    obtain ⟨outcome, env⟩ := res
    have hafter : ∀ errno, After t { t with errno := errno, env := env } := fun errno =>
      ⟨⟨hwired, fun f x hx => (h.targets f x hx).mono hgrows,
        fun f x hx => (h.globals f x hx).mono hgrows,
        fun f s hs => (h.services f s hs).mono hgrows, h.slow⟩, hgrows, fun _ => id⟩
    refine ⟨(callUkernTarget_of_target htarget hsame).trans
      (callUkernTarget_of_target htarget hres).symm, fun a t' hdone => ?_⟩
    rw [callUkernTarget_of_target htarget hsame] at hdone
    cases outcome with
    | failed errno =>
      cases hdone
      exact ⟨hafter errno, fun reply hreply => by cases hreply⟩
    | returned reply =>
      cases hdone
      refine ⟨hafter .clear, fun reply' hreply' => ?_⟩
      cases hreply'
      exact hreply reply rfl

/-- A right SCB is put into the tables. -/
theorem right_setTarget {t₀ : Thread Env} {scb : Option WorkerScb} (hafter : After t₀ t)
    (hright : ∀ x, scb = some x → ScbRight t.env.ukernel func x)
    (hslow : func = .slopoll → t.services .slopoll ≠ none) :
    Same (modify fun t => t.setUkernTarget func scb) (modify fun t => t.setUkernTarget func scb) t
      fun _ t' => After t₀ t' :=
  .modify (hafter.trans (hafter.routed.setUkernTarget hright hslow))

section Calls
variable {call call' : UkernRequest → Ukern Env (Option UkernReply)}
  (hcall : ∀ t r, Routed t → Right w t r (call r) (call' r))

include hcall

theorem right_coselect (h : Routed t) (name : CocallNum) :
    Same (coselect call name) (coselect call' name) t fun a t' =>
      After t t' ∧ ∀ obj s, a = some obj → obj.coservice = some s →
        ServiceRight t'.env.ukernel name s := by
  refine (hcall t (.coselect name) h).bind fun a t' ⟨hafter, hreply⟩ => ?_
  cases a with
  | none => exact .exit
  | some reply =>
    dsimp only
    split
    · refine .modify_bind (.ret ⟨hafter.trans (hafter.routed.setErrno _), fun obj s hobj => ?_⟩)
      cases hobj
    · exact .ret ⟨hafter, fun obj s hobj hs => hreply reply rfl obj s hobj hs⟩

theorem right_codiscover (h : Routed t) {obj : ServiceObject}
    (hobj : ∀ s, obj.coservice = some s → ServiceRight t.env.ukernel func s) :
    Same (codiscover call obj) (codiscover call' obj) t fun a t' =>
      After t t' ∧ ∀ scb, a.2 = some scb →
        ScbRight t'.env.ukernel func scb ∧ obj.coservice ≠ none := by
  refine (hcall t (.codiscover obj) h).bind fun a t' ⟨hafter, hreply⟩ => ?_
  cases a with
  | none =>
    refine .get_bind ?_
    split
    · exact .ret ⟨hafter, fun scb hscb => by cases hscb⟩
    · exact .exit
  | some reply =>
    dsimp only
    split
    · exact .exit
    · refine .ret ⟨hafter, fun scb hscb => ?_⟩
      obtain ⟨s, hs, hright⟩ := hreply reply rfl scb hscb
      refine ⟨hright func ((hobj s hs).mono hafter.grows), ?_⟩
      rw [hs]
      exact Option.some_ne_none s

theorem right_codiscover2 (h : Routed t) {s : UkernService}
    (hs : ServiceRight t.env.ukernel func s) :
    Same (codiscover2 call s) (codiscover2 call' s) t fun a t' =>
      After t t' ∧ ∀ scb, a = some scb → ScbRight t'.env.ukernel func scb := by
  refine (hcall t (.codiscover2 s) h).bind fun a t' ⟨hafter, hreply⟩ => ?_
  cases a with
  | none => exact .exit
  | some reply =>
    dsimp only
    split
    · exact .exit
    · exact .ret ⟨hafter, fun scb hscb =>
        hreply reply rfl scb hscb func (hs.mono hafter.grows)⟩

theorem right_getUkernelService (h : Routed t) (func : CocallNum) :
    Same (getUkernelService call func) (getUkernelService call' func) t fun _ t' => After t t' := by
  refine .get_bind ?_
  split
  next =>
    refine (right_coselect hcall h func).bind fun a t₁ ⟨hafter, hobj⟩ => ?_
    cases a with
    | none => exact .exit
    | some obj =>
      obtain ⟨hserve, hknown⟩ := hafter.routed.setService fun s hs => hobj obj s rfl hs
      refine .modify_bind ?_
      generalize (if t₁.services func = none then
        { t₁ with services := Function.update t₁.services func obj.coservice } else t₁) = t₂
        at hserve hknown
      have hobj₂ : ∀ s, obj.coservice = some s → ServiceRight t₂.env.ukernel func s :=
        fun s hs => (hobj obj s rfl hs).mono hserve.grows
      refine (right_codiscover hcall hserve.routed hobj₂).bind fun r t₃ ⟨hafter₃, hscb⟩ => ?_
      have hall := (hafter.trans hserve).trans hafter₃
      obtain ⟨tmp, scb⟩ := r
      dsimp only
      split
      next hfound =>
        obtain ⟨x, hx⟩ := Option.ne_none_iff_exists'.mp hfound.2
        refine right_setTarget hall (fun x hx => (hscb x hx).1) fun hf => ?_
        exact hafter₃.known _ (hf ▸ hknown (hscb x hx).2)
      next => exact .ret hall
  next s hs =>
    split
    · exact .exit
    · have hright := h.services func s hs
      refine (right_codiscover2 hcall h hright).bind fun scb t₁ ⟨hafter, hscb⟩ => ?_
      split
      · refine right_setTarget hafter hscb fun hf => hafter.known _ ?_
        rw [← hf, hs]
        exact Option.some_ne_none s
      · exact .ret hafter

theorem right_initCodiscover2 (h : Routed t) :
    Same (initCodiscover2 call) (initCodiscover2 call') t fun _ t' => After t t' := by
  refine .get_bind ?_
  split
  · split
    · split
      · exact .exit
      · exact right_getUkernelService hcall h _
    · have hset := h.setUkernTarget (h.globals .codiscover2) fun hf => by cases hf
      exact .modify_bind ((right_getUkernelService hcall hset.routed _).mono
        fun _ _ => hset.trans)
  · exact .ret (.refl h)

theorem right_initNewThreadCalls (h : Routed t) :
    Same (initNewThreadCalls call) (initNewThreadCalls call') t fun _ t' => After t t' := by
  refine .get_bind ?_
  split
  · exact .exit
  · have hadopt := h.adoptCodiscover
    have hadopt' := hadopt.trans hadopt.routed.adoptCodiscover
    refine .modify_bind (.modify_bind ?_)
    refine (right_initCodiscover2 hcall hadopt'.routed).bind fun _ t₁ h₁ => ?_
    refine (right_getUkernelService hcall h₁.routed .codiscover).bind fun _ t₂ h₂ => ?_
    exact (right_getUkernelService hcall h₂.routed .coselect).mono
      fun _ _ h₃ => hadopt'.trans (h₁.trans (h₂.trans h₃))

/-- The replacement of an SCB. -/
theorem right_refreshTargetScb (h : Routed t) (func : CocallNum) :
    Same (refreshTargetScb call func) (refreshTargetScb call' func) t fun _ t' => After t t' := by
  refine .get_bind ?_
  split
  next =>
    refine (right_getUkernelService hcall h func).bind fun _ t₁ h₁ => ?_
    exact .get_bind (.ret h₁)
  next s hs =>
    refine (right_codiscover2 hcall h (h.services func s hs)).bind fun scb t₁ ⟨hafter, hscb⟩ => ?_
    split
    · refine .modify_bind (.ret (hafter.trans (hafter.routed.setUkernTarget hscb fun hf => ?_)))
      refine hafter.known _ ?_
      rw [← hf, hs]
      exact Option.some_ne_none s
    · exact .ret hafter

theorem right_prepareTarget (h : Routed t) (func : CocallNum) :
    Same (prepareTarget call func) (prepareTarget call' func) t fun _ t' => After t t' := by
  refine .get_bind ?_
  split
  · split
    · exact .exit
    · split
      · refine (right_initNewThreadCalls hcall h).bind fun _ t₁ h₁ => ?_
        exact (right_getUkernelService hcall h₁.routed func).mono fun _ _ => h₁.trans
      · exact right_getUkernelService hcall h func
  · exact .ret (.refl h)

/-- The loop, by induction on the fuel. -/
theorem right_callUkernService {cocall : Env → TargetedCall → CallOutcome × Env}
    (hagree : Agree w cocall) (r : UkernRequest) (fuel : Nat) (h : Routed t)
    (scb : Option WorkerScb) :
    Right w t r (callUkernService cocall call r fuel scb)
      (callUkernService (Microkernel.cocall w) call' r fuel scb) := by
  have hnone : ∀ {t₀ t₁ : Thread Env}, After t₀ t₁ → After t₀ t₁ ∧
      ∀ reply, (none : Option UkernReply) = some reply → ReplyRight w t₁.env.ukernel r reply :=
    fun hafter => ⟨hafter, fun reply hreply => by cases hreply⟩
  induction fuel generalizing t scb with
  | zero => exact .outOfFuel
  | succ fuel ih =>
    refine (right_callUkernTarget hagree h r).bind fun a t₁ ⟨h₁, hreply⟩ => ?_
    cases a with
    | some reply => exact .ret ⟨h₁, hreply⟩
    | none =>
      refine .get_bind ?_
      split
      · cases scb with
        | none =>
          refine (right_refreshTargetScb hcall h₁.routed r.func).bind fun scb t₂ h₂ => ?_
          exact (ih h₂.routed scb).mono fun _ _ ⟨h₃, hreply⟩ => ⟨h₁.trans (h₂.trans h₃), hreply⟩
        | some old =>
          refine (right_refreshTargetScb hcall h₁.routed r.func).bind fun new t₂ h₂ => ?_
          split
          · exact .modify_bind (.ret (hnone (h₁.trans (h₂.trans (h₂.routed.setErrno _)))))
          · exact .ret (hnone (h₁.trans h₂))
      · exact .ret (hnone h₁)

end Calls

/-- A call is made right, to any depth. -/
theorem routed_ukernCall {cocall : Env → TargetedCall → CallOutcome × Env}
    (hagree : Agree w cocall) (fuel : Nat) (h : Routed t) (r : UkernRequest) :
    Right w t r (ukernCall cocall fuel r) (ukernCall (Microkernel.cocall w) fuel r) := by
  induction fuel generalizing t r with
  | zero => exact .outOfFuel
  | succ fuel ih =>
    refine (right_prepareTarget (fun _ r h => ih h r) h r.func).bind fun _ t₁ h₁ => ?_
    exact (right_callUkernService (fun _ r h => ih h r) hagree r fuel h₁.routed none).mono
      fun _ _ ⟨h₂, hreply⟩ => ⟨h₁.trans h₂, hreply⟩

end

/-! ### A process -/

/-- The tables of all threads fit the microkernel. -/
def ClientRouted (p : Client) : Prop := ∀ i, Routed (p.thread i)

theorem ClientRouted.put {p : Client} (h : ClientRouted p) {i : Nat} {t : Thread Env}
    (hafter : After (p.thread i) t) : ClientRouted (p.put i t) := by
  intro j
  have hr := hafter.routed
  by_cases hj : j = i
  · subst hj
    have hsame : (p.put j t).thread j = t := by
      simp only [Client.put, Client.thread, Function.update_self]
    rw [hsame]
    exact hr
  · have htargets : ((p.put i t).thread j).targets = p.targets j := Function.update_of_ne hj _ _
    refine ⟨hr.wired, fun f x hx => ?_, hr.globals, hr.services, fun htarget => ?_⟩
    · rw [htargets] at hx
      exact ((h j).targets f x hx).mono hafter.grows
    · rw [htargets] at htarget
      exact hafter.known _ ((h j).slow htarget)

/-- An SCB that a daemon has given away may be taken over. -/
theorem Routed.adoptTarget {t : Thread Env} (h : Routed t) {d : UkernDaemon} {func : CocallNum}
    {handler : Handler} {k : Nat} {m : Microkernel} (hm : t.env.ukernel = m)
    (hmem : (func, handler) ∈ endpointsOf d false) :
    After t (Thread.adoptTarget t func (m.scbs d false)[k]?.join) := by
  unfold Thread.adoptTarget
  have hfast := slow_of_mem hmem
  split
  · refine h.setUkernTarget (fun x hx => ?_) fun hf => ?_
    · have hscb : some x ∈ m.scbs d false := List.mem_of_getElem? (Option.join_eq_some_iff.mp hx)
      subst hm
      rw [ScbRight, ← hfast]
      exact ⟨d, handler, h.wired.scbs d false x hscb, hmem⟩
    · rw [hf] at hfast
      cases hfast
  · exact .refl h

theorem clientRouted_coprocInit {p : Client} (h : ClientRouted p) (i k : Nat) :
    ClientRouted (p.coprocInit i k) := by
  have henv : ∀ (t : Thread Env) func scb, (Thread.adoptTarget t func scb).env = t.env := by
    intro t func scb
    unfold Thread.adoptTarget
    split <;> rfl
  have hinsert : (.coinsert, .namespaceObjectInsert) ∈ endpointsOf .nsd false := by decide
  have hdiscover : (.codiscover, .discoverCoservice) ∈ endpointsOf .coserviced false := by decide
  have hselect : (.coselect, .namespaceObjectSelect) ∈ endpointsOf .nsd false := by decide
  have h₁ := (h i).adoptTarget (k := 2) (m := p.env.ukernel) rfl hinsert
  have h₂ := h₁.routed.adoptTarget (k := k) (m := p.env.ukernel)
    (congrArg Env.ukernel (henv _ _ _)) hdiscover
  have h₃ := h₂.routed.adoptTarget (k := 3) (m := p.env.ukernel)
    (congrArg Env.ukernel ((henv _ _ _).trans (henv _ _ _))) hselect
  exact h.put (h₁.trans (h₂.trans h₃))

/-- The step lemma. -/
theorem clientRouted_act {w : World} {p p' : Client} {a : ClientAct} (h : ClientRouted p)
    (hact : p.act w a = some p') : ClientRouted p' := by
  cases a with
  | init i k =>
    cases hact
    exact clientRouted_coprocInit h i k
  | call i fuel r =>
    have hright := routed_ukernCall (fun _ _ _ => rfl : Agree w (Microkernel.cocall w)) fuel (h i) r
    rw [Client.act] at hact
    split at hact
    next a t hdone =>
      cases hact
      exact h.put (hright.2 a t hdone).1
    next => cases hact

/-- The run lemma. -/
theorem clientRouted_acts {w : World} {p p' : Client} {acts : List ClientAct} (h : ClientRouted p)
    (hrun : p.acts w acts = some p') : ClientRouted p' := by
  induction acts generalizing p with
  | nil =>
    cases hrun
    exact h
  | cons a rest ih =>
    obtain ⟨p₁, hact, hrest⟩ := Option.bind_eq_some_iff.mp hrun
    exact ih (clientRouted_act h hact) hrest

theorem clientRouted_new (env : Env) (h : Wired env.ukernel) : ClientRouted (newClient env) :=
  fun _ => {
    wired := h
    targets _ _ hx := by cases hx
    globals _ _ hx := by cases hx
    services _ _ hs := by cases hs
    slow hnone := absurd rfl hnone }

/-- coserviced and nsd start, with all their threads. -/
def startMoves : List Move :=
  List.replicate 5 (.startup .coserviced fun _ => true) ++
    List.replicate 16 (.startup .nsd fun _ => true)

/-- One processor, and no failures. The answers have `data`. -/
def quietWorld (data : Nat) : World where
  ncpu := 1
  happens _ := ⟨[], none⟩
  answer _ _ := ⟨none, none, none, none, data⟩
  stray _ := .failed .enotconn

/-- A kernel that does not let a cocall through if its number is not one of the daemon. -/
def strictCocall (w : World) (env : Env) (c : TargetedCall) : CallOutcome × Env :=
  match env.ukernel.workers c.scb with
  | none => (.failed .eagain, env)
  | some (d, slow) =>
    if (coacceptHandler d slow c.op).isNone then (.failed .eagain, env)
    else Microkernel.cocall w env c

theorem strictCocall_agree (w : World) : Agree w (strictCocall w) := by
  rintro env c ⟨d, handler, hworker, hhandler, -⟩
  simp only [strictCocall, hworker, hhandler, Option.isNone_some, Bool.false_eq_true, if_false]

/-- A call after the start returns the answer. -/
example : (match ukernCall (Microkernel.cocall (quietWorld 7)) 8 (.other .coupdate 0 rfl)
    (((newClient ⟨initMicrokernel.goOn 1 startMoves, 0⟩).coprocInit 0 0).thread 0) with
    | .done (some reply) _ => some reply.data
    | _                    => none) = some 7 := by
  decide +kernel

end Comsg.Proofs.Ukernel
