import Comsg.Ukernel.Services

/-!
# `Comsg.Proofs.Ukernel.Wiring`: the services of the microkernel fit together

A client finds the SCB of a worker by the name of a function, and the number that it sends along is
the one that coserviced keeps for the service. So that the worker runs the function of that name, the
lists of the daemons, their services and the names in the root namespace have to fit together.

* `Wired`: they do, after any moves (`move_wired`), and nothing that clients know is taken back
  (`Grows`).
* `Reaches`: what a cocall has to be like. Then the answer is right (`cocall_right`).
-/

set_option autoImplicit false

namespace Comsg.Proofs.Ukernel

open Comsg.Lib
open Comsg.Libcomsg
open Comsg.Ukernel

/-- The only function on the slow path. -/
def slowFunc : CocallNum → Bool
  | .slopoll => true
  | _        => false

/-- The worker belongs to the daemon that serves the function, and to the right path. -/
def ScbRight (m : Microkernel) (func : CocallNum) (scb : WorkerScb) : Prop :=
  ∃ d h, m.workers scb = some (d, slowFunc func) ∧ (func, h) ∈ endpointsOf d (slowFunc func)

/-- The service is the one of the function, with its number, its path and workers that serve it. -/
def ServiceRight (m : Microkernel) (func : CocallNum) (s : UkernService) : Prop :=
  s.op = func.value ∧ s.slowpath = slowFunc func ∧
    ∃ service e, m.services[s.handle]? = some service ∧ m.endpoints[service.impl]? = some e ∧
      ∀ scb, some scb ∈ e.workerScbs → ScbRight m func scb

/-- The worker of a cocall serves its path, and runs the function that is called. -/
def Reaches (m : Microkernel) (c : TargetedCall) : Prop :=
  ∃ d h, m.workers c.scb = some (d, c.slow) ∧ coacceptHandler d c.slow c.op = some h ∧
    (c.request.func, h) ∈ endpointsOf d c.slow

/-- What the daemons have set up so far fits together. -/
structure Wired (m : Microkernel) : Prop where
  names : ∀ func i, m.names func = .coservice i →
    ∃ s, m.services[i]? = some s ∧ ServiceRight m func ⟨i, s.op, s.slowpath⟩
  provided : ∀ d slow e, m.provided d slow = some e →
    ∃ ep, m.endpoints[e]? = some ep ∧
      ∀ scb, some scb ∈ ep.workerScbs → m.workers scb = some (d, slow)
  scbs : ∀ d slow scb, some scb ∈ m.scbs d slow → m.workers scb = some (d, slow)
  fresh : ∀ scb, m.nextScb ≤ scb → m.workers scb = none
  slow : ∀ d, m.provided d true ≠ none → m.names .slopoll ≠ .absent

/-- Nothing that clients know is taken back. -/
structure Grows (m m' : Microkernel) : Prop where
  workers : ∀ scb x, m.workers scb = some x → m'.workers scb = some x
  services : ∀ (i : Nat) s, m.services[i]? = some s → m'.services[i]? = some s
  endpoints : ∀ (i : Nat) e, m.endpoints[i]? = some e →
    ∃ e', m'.endpoints[i]? = some e' ∧ e'.workerScbs = e.workerScbs

/-! ### The lists of the daemons -/

/-- A worker runs the function of each number in its list. -/
theorem coacceptHandler_eq {d : UkernDaemon} {slow : Bool} {func : CocallNum} {h : Handler}
    (hmem : (func, h) ∈ endpointsOf d slow) : coacceptHandler d slow func.value = some h := by
  have hall : ∀ e ∈ endpointsOf d slow, coacceptHandler d slow e.1.value = some e.2 := by
    cases d <;> cases slow <;> decide
  exact hall (func, h) hmem

/-- A function is on one path only. -/
theorem slow_of_mem {d : UkernDaemon} {slow : Bool} {func : CocallNum} {h : Handler}
    (hmem : (func, h) ∈ endpointsOf d slow) : slow = slowFunc func := by
  have hall : ∀ e ∈ endpointsOf d slow, slow = slowFunc e.1 := by
    cases d <;> cases slow <;> decide
  exact hall (func, h) hmem

/-- No function but `SLOPOLL` is on the slow path. -/
theorem slowFunc_iff {func : CocallNum} : slowFunc func = true ↔ func = .slopoll := by
  cases func <;> decide

/-- A daemon provides its own functions only. -/
def ActOk (d : UkernDaemon) : StartupAct → Prop
  | .insert func slow => ∃ h, (func, h) ∈ endpointsOf d slow
  | .update func      => ∃ h, (func, h) ∈ endpointsOf d false
  | _                 => True

theorem insertAll_ok {d : UkernDaemon} {a : StartupAct} (h : a ∈ insertAll d) : ActOk d a := by
  obtain hfast | hslow := List.mem_append.mp h
  · obtain ⟨e, he, rfl⟩ := List.mem_map.mp hfast
    exact ⟨e.2, he⟩
  · obtain ⟨e, he, rfl⟩ := List.mem_map.mp hslow
    exact ⟨e.2, he⟩

theorem startup_ok {d : UkernDaemon} {a : StartupAct} (h : a ∈ startup d) : ActOk d a := by
  cases d with
  | coserviced =>
    obtain rfl | h := List.mem_cons.mp h
    · trivial
    · exact insertAll_ok h
  | nsd =>
    obtain h | h := List.mem_append.mp h
    · obtain h | h := List.mem_append.mp h
      · obtain rfl | h := List.mem_cons.mp h
        · trivial
        · obtain ⟨e, -, rfl⟩ := List.mem_map.mp h
          trivial
      · have hawait : ∃ func, a = .await func := by
          simp only [List.mem_cons, List.not_mem_nil, or_false] at h
          obtain rfl | rfl | rfl := h <;> exact ⟨_, rfl⟩
        obtain ⟨func, rfl⟩ := hawait
        trivial
    · obtain ⟨e, he, rfl⟩ := List.mem_map.mp h
      exact ⟨e.2, he⟩
  | coeventd =>
    obtain rfl | h := List.mem_cons.mp h
    · trivial
    obtain rfl | h := List.mem_cons.mp h
    · trivial
    · exact insertAll_ok h
  | ipcd =>
    obtain rfl | h := List.mem_cons.mp h
    · trivial
    obtain rfl | h := List.mem_cons.mp h
    · trivial
    · exact insertAll_ok h

section
variable {m m' : Microkernel} {func : CocallNum} {scb : WorkerScb} {d : UkernDaemon}
  {slow : Bool}

/-! ### Growth -/

theorem Grows.refl (m : Microkernel) : Grows m m :=
  ⟨fun _ _ => id, fun _ _ => id, fun _ e he => ⟨e, he, rfl⟩⟩

theorem Grows.trans {m'' : Microkernel} (h : Grows m m') (h' : Grows m' m'') : Grows m m'' where
  workers scb x hx := h'.workers scb x (h.workers scb x hx)
  services i s hs := h'.services i s (h.services i s hs)
  endpoints i e he := by
    obtain ⟨e', he', heq⟩ := h.endpoints i e he
    obtain ⟨e'', he'', heq'⟩ := h'.endpoints i e' he'
    exact ⟨e'', he'', heq'.trans heq⟩

theorem ScbRight.mono (h : ScbRight m func scb) (hgrows : Grows m m') : ScbRight m' func scb := by
  obtain ⟨d, handler, hworker, hmem⟩ := h
  exact ⟨d, handler, hgrows.workers scb _ hworker, hmem⟩

theorem ServiceRight.mono {s : UkernService} (h : ServiceRight m func s) (hgrows : Grows m m') :
    ServiceRight m' func s := by
  obtain ⟨hop, hslow, service, e, hservice, he, hscbs⟩ := h
  obtain ⟨e', he', heq⟩ := hgrows.endpoints _ e he
  refine ⟨hop, hslow, service, e', hgrows.services _ service hservice, he', fun scb hmem => ?_⟩
  rw [heq] at hmem
  exact (hscbs scb hmem).mono hgrows

theorem Reaches.mono {c : TargetedCall} (h : Reaches m c) (hgrows : Grows m m') : Reaches m' c := by
  obtain ⟨d, handler, hworker, hrest⟩ := h
  exact ⟨d, handler, hgrows.workers _ _ hworker, hrest⟩

/-- The names keep their services while everything else grows. -/
theorem Wired.names_of_grows (h : Wired m) (hgrows : Grows m m') (hnames : m'.names = m.names) :
    ∀ func i, m'.names func = .coservice i →
      ∃ s, m'.services[i]? = some s ∧ ServiceRight m' func ⟨i, s.op, s.slowpath⟩ := by
  intro func i hname
  rw [hnames] at hname
  obtain ⟨s, hs, hright⟩ := h.names func i hname
  exact ⟨s, hgrows.services i s hs, hright.mono hgrows⟩

/-! ### The startup -/

/-- The new workers belong to the daemon, and the old ones to whom they did. -/
theorem spawnEndpoints_wired (h : Wired m) (n : Nat) (started : Nat → Bool) :
    Wired (m.spawnEndpoints d slow n started) ∧ Grows m (m.spawnEndpoints d slow n started) := by
  have hold : ∀ scb x, m.workers scb = some x →
      (m.spawnEndpoints d slow n started).workers scb = some x := by
    intro scb x hx
    have hnot : ¬(m.nextScb ≤ scb ∧ scb < m.nextScb + n) := by
      rintro ⟨hle, -⟩
      rw [h.fresh scb hle] at hx
      cases hx
    exact (if_neg hnot).trans hx
  have hgrows : Grows m (m.spawnEndpoints d slow n started) :=
    ⟨hold, fun _ _ => id, fun _ e he => ⟨e, he, rfl⟩⟩
  refine ⟨⟨h.names_of_grows hgrows rfl, fun d' slow' e he => ?_, fun d' slow' scb hscb => ?_,
    fun scb hscb => ?_, h.slow⟩, hgrows⟩
  · obtain ⟨ep, hep, hscbs⟩ := h.provided d' slow' e he
    exact ⟨ep, hep, fun scb hscb => hold scb _ (hscbs scb hscb)⟩
  · by_cases hd : d' = d ∧ slow' = slow
    · obtain ⟨rfl, rfl⟩ := hd
      have hmem : some scb ∈ (List.range n).map fun i =>
          if started i then some (m.nextScb + i) else none := by
        simpa [Microkernel.spawnEndpoints] using hscb
      obtain ⟨i, hi, heq⟩ := List.mem_map.mp hmem
      split at heq
      next =>
        cases heq
        have hin : m.nextScb ≤ m.nextScb + i ∧ m.nextScb + i < m.nextScb + n :=
          ⟨Nat.le_add_right _ _, Nat.add_lt_add_left (List.mem_range.mp hi) _⟩
        exact if_pos hin
      next => cases heq
    · have hsame : (m.spawnEndpoints d slow n started).scbs d' slow' = m.scbs d' slow' := by
        by_cases hdd : d' = d
        · subst hdd
          have hss : slow' ≠ slow := fun heq => hd ⟨rfl, heq⟩
          simp [Microkernel.spawnEndpoints, Function.update_of_ne hss]
        · simp [Microkernel.spawnEndpoints, Function.update_of_ne hdd]
      rw [hsame] at hscb
      exact hold scb _ (h.scbs d' slow' scb hscb)
  · have hle : m.nextScb + n ≤ scb := hscb
    have hnot : ¬(m.nextScb ≤ scb ∧ scb < m.nextScb + n) := fun hin =>
      absurd hin.2 (Nat.not_lt.mpr hle)
    exact (if_neg hnot).trans (h.fresh scb (Nat.le_trans (Nat.le_add_right _ n) hle))

theorem initEndpoints_wired (h : Wired m) (ncpu : Nat) (started : Nat → Bool) :
    Wired (m.initEndpoints d ncpu started) ∧ Grows m (m.initEndpoints d ncpu started) := by
  unfold Microkernel.initEndpoints
  have hslow : Wired (if (sloacceptEndpoints d).length ≠ 0 then
        m.spawnEndpoints d true (max (sloacceptEndpoints d).length ncpu) started else m) ∧
      Grows m (if (sloacceptEndpoints d).length ≠ 0 then
        m.spawnEndpoints d true (max (sloacceptEndpoints d).length ncpu) started else m) := by
    split
    · exact spawnEndpoints_wired h _ started
    · exact ⟨h, .refl m⟩
  dsimp only
  split
  · obtain ⟨hwired, hgrows⟩ := @spawnEndpoints_wired _ d false hslow.1
      (max (coacceptEndpoints d).length ncpu) started
    exact ⟨hwired, hslow.2.trans hgrows⟩
  · exact hslow

theorem getElem?_append_of_some {α : Type} {xs : List α} {i : Nat} {x : α} (h : xs[i]? = some x)
    (ys : List α) : (xs ++ ys)[i]? = some x := by
  rw [List.getElem?_append_left (List.getElem?_eq_some_iff.mp h).1, h]

/-- A service is provided for the function, and what there was stays. -/
theorem provide_spec (h : Wired m) {handler : Handler} (hmem : (func, handler) ∈ endpointsOf d slow)
    (hslow : slow = true → m.provided d slow = none) :
    Grows m (m.provide d slow func) ∧
      (∃ s, (m.provide d slow func).services[m.services.length]? = some s ∧
        ServiceRight (m.provide d slow func) func ⟨m.services.length, s.op, s.slowpath⟩) ∧
      ∀ d' slow' e, (m.provide d slow func).provided d' slow' = some e →
        ∃ ep, (m.provide d slow func).endpoints[e]? = some ep ∧
          ∀ scb, some scb ∈ ep.workerScbs → m.workers scb = some (d', slow') := by
  have hpath := slow_of_mem hmem
  -- The flag for the slow path is given to the first service of a daemon only.
  cases hprovided : m.provided d slow with
  | none =>
    have heq : m.provide d slow func =
        { m with
          endpoints := m.endpoints ++ [⟨m.scbs d slow, (m.scbs d slow).length,
            if d = .coserviced then 1 else 0⟩]
          services := m.services ++ [⟨func.value, slow, m.endpoints.length⟩]
          provided := Function.update m.provided d
            (Function.update (m.provided d) slow (some m.endpoints.length)) } := by
      rw [Microkernel.provide, hprovided]
    rw [heq]
    refine ⟨⟨fun _ _ => id, fun i s hs => getElem?_append_of_some hs _,
      fun i e he => ⟨e, getElem?_append_of_some he _, rfl⟩⟩, ⟨_, List.getElem?_concat_length, rfl,
        hpath, _, _, List.getElem?_concat_length, List.getElem?_concat_length, fun scb hscb => ?_⟩,
      fun d' slow' e he => ?_⟩
    · have hworker := h.scbs d slow scb hscb
      rw [hpath] at hworker hmem
      exact ⟨d, handler, hworker, hmem⟩
    · by_cases hnew : d' = d ∧ slow' = slow
      · obtain ⟨rfl, rfl⟩ := hnew
        simp only [Function.update_self, Option.some.injEq] at he
        subst he
        exact ⟨_, List.getElem?_concat_length, fun scb hscb => h.scbs d' slow' scb hscb⟩
      · have hold : m.provided d' slow' = some e := by
          by_cases hd : d' = d
          · subst hd
            have hs : slow' ≠ slow := fun heq => hnew ⟨rfl, heq⟩
            simpa [Function.update_of_ne hs] using he
          · simpa [Function.update_of_ne hd] using he
        obtain ⟨ep, hep, hscbs⟩ := h.provided d' slow' e hold
        exact ⟨ep, getElem?_append_of_some hep _, hscbs⟩
  | some e =>
    have heq : m.provide d slow func =
        { m with services := m.services ++ [⟨func.value, false, e⟩] } := by
      rw [Microkernel.provide, hprovided]
    have hfast : slow = false := by
      cases slow with
      | false => rfl
      | true =>
        rw [hslow rfl] at hprovided
        cases hprovided
    obtain ⟨ep, hep, hscbs⟩ := h.provided d slow e hprovided
    rw [heq]
    refine ⟨⟨fun _ _ => id, fun i s hs => getElem?_append_of_some hs _,
      fun i e he => ⟨e, he, rfl⟩⟩, ⟨_, List.getElem?_concat_length, rfl, hfast.symm.trans hpath, _,
        ep, List.getElem?_concat_length, hep, fun scb hscb => ?_⟩, h.provided⟩
    have hworker := hscbs scb hscb
    rw [hpath] at hworker hmem
    exact ⟨d, handler, hworker, hmem⟩

/-- What `provide` leaves alone. -/
theorem provide_rest (m : Microkernel) (d : UkernDaemon) (slow : Bool) (func : CocallNum) :
    (m.provide d slow func).names = m.names ∧ (m.provide d slow func).workers = m.workers ∧
      (m.provide d slow func).scbs = m.scbs ∧ (m.provide d slow func).nextScb = m.nextScb ∧
        ∀ d', (m.provide d slow func).provided d' true ≠ none → slow = true ∨
          m.provided d' true ≠ none := by
  unfold Microkernel.provide
  split
  next =>
    refine ⟨rfl, rfl, rfl, rfl, fun d' h => ?_⟩
    cases slow with
    | true => exact .inl rfl
    | false =>
      refine .inr ?_
      by_cases hd : d' = d
      · subst hd
        simpa using h
      · simpa [Function.update_of_ne hd] using h
  next => exact ⟨rfl, rfl, rfl, rfl, fun _ => .inr⟩

/-- A service is provided, and the name of its function leads to it. -/
theorem register_wired (h : Wired m) {handler : Handler}
    (hmem : (func, handler) ∈ endpointsOf d slow)
    (hslow : slow = true → m.provided d slow = none) :
    Wired ((m.provide d slow func).setName func (.coservice m.services.length)) ∧
      Grows m ((m.provide d slow func).setName func (.coservice m.services.length)) := by
  obtain ⟨hgrows, hservice, hprovided⟩ := provide_spec h hmem hslow
  obtain ⟨hnames, hworkers, hscbs, hnext, hrest⟩ := provide_rest m d slow func
  have hset : Grows (m.provide d slow func)
      ((m.provide d slow func).setName func (.coservice m.services.length)) :=
    ⟨fun _ _ => id, fun _ _ => id, fun _ e he => ⟨e, he, rfl⟩⟩
  have hother : ∀ f, f ≠ func →
      ((m.provide d slow func).setName func (.coservice m.services.length)).names f =
        m.names f := by
    intro f hf
    rw [← hnames]
    exact Function.update_of_ne hf _ _
  have hself : ((m.provide d slow func).setName func (.coservice m.services.length)).names func =
      .coservice m.services.length := Function.update_self ..
  refine ⟨⟨fun f i hname => ?_, fun d' slow' e he => ?_, fun d' slow' scb hscb => ?_,
    fun scb hscb => ?_, fun d' hd => ?_⟩, hgrows.trans hset⟩
  · by_cases hf : f = func
    · subst hf
      rw [hself] at hname
      cases hname
      obtain ⟨s, hs, hright⟩ := hservice
      exact ⟨s, hs, hright.mono hset⟩
    · rw [hother f hf] at hname
      obtain ⟨s, hs, hright⟩ := h.names f i hname
      exact ⟨s, hgrows.services i s hs, hright.mono (hgrows.trans hset)⟩
  · obtain ⟨ep, hep, hright⟩ := hprovided d' slow' e he
    exact ⟨ep, hep, fun scb hscb => hgrows.workers scb _ (hright scb hscb)⟩
  · have hscb' : some scb ∈ (m.provide d slow func).scbs d' slow' := hscb
    rw [hscbs] at hscb'
    exact hgrows.workers scb _ (h.scbs d' slow' scb hscb')
  · have hle : (m.provide d slow func).nextScb ≤ scb := hscb
    rw [hnext] at hle
    exact (congrFun hworkers scb).trans (h.fresh scb hle)
  · by_cases hf : .slopoll = func
    · rw [hf, hself]
      exact NsEntry.noConfusion
    · rw [hother _ hf]
      cases hrest d' hd with
      | inl htrue =>
        have hpath := slow_of_mem hmem
        rw [htrue] at hpath
        exact absurd (slowFunc_iff.mp hpath.symm).symm hf
      | inr hold => exact h.slow d' hold

/-- A step of a startup keeps everything that was set up. -/
theorem act_wired (h : Wired m) {ncpu : Nat} {started : Nat → Bool} {a : StartupAct}
    (hok : ActOk d a) (hact : m.act d ncpu started a = some m') : Wired m' ∧ Grows m m' := by
  cases a with
  | endpoints =>
    cases hact
    exact initEndpoints_wired h ncpu started
  | reserve func =>
    rw [Microkernel.act] at hact
    split at hact <;> cases hact
    next hname =>
      refine ⟨⟨fun f i hf => ?_, h.provided, h.scbs, h.fresh, fun d' hd => ?_⟩, fun _ _ => id,
        fun _ _ => id, fun _ e he => ⟨e, he, rfl⟩⟩
      · have hne : f ≠ func := by
          rintro rfl
          have hself : (m.setName f .reservation).names f = .reservation := Function.update_self ..
          rw [hself] at hf
          cases hf
        have hold : (m.setName func .reservation).names f = m.names f :=
          Function.update_of_ne hne _ _
        rw [hold] at hf
        exact h.names f i hf
      · have hold := h.slow d' hd
        have hne : CocallNum.slopoll ≠ func := by
          rintro rfl
          exact hold hname
        have heq : (m.setName func .reservation).names .slopoll = m.names .slopoll :=
          Function.update_of_ne hne _ _
        rw [heq]
        exact hold
  | await func =>
    rw [Microkernel.act] at hact
    split at hact <;> cases hact
    exact ⟨h, .refl m⟩
  | insert func slow =>
    obtain ⟨handler, hmem⟩ := hok
    rw [Microkernel.act] at hact
    split at hact <;> cases hact
    next hname =>
      refine register_wired h hmem fun hslow => ?_
      subst hslow
      have hfunc : func = .slopoll := slowFunc_iff.mp (slow_of_mem hmem).symm
      by_contra hprovided
      exact h.slow d hprovided (hfunc ▸ hname)
  | update func =>
    obtain ⟨handler, hmem⟩ := hok
    rw [Microkernel.act] at hact
    split at hact <;> cases hact
    exact register_wired h hmem fun hslow => by cases hslow

theorem wired_step (h : Wired m) {ncpu : Nat} {a : UkernDaemon × (Nat → Bool)}
    (hstep : m.startupStep ncpu a = some m') : Wired m' ∧ Grows m m' := by
  obtain ⟨act, hget, hrest⟩ := Option.bind_eq_some_iff.mp hstep
  obtain ⟨m₁, hact, hm'⟩ := Option.bind_eq_some_iff.mp hrest
  cases hm'
  have hok : ActOk a.1 act := startup_ok (List.mem_of_getElem? hget)
  obtain ⟨hwired, hgrows⟩ := act_wired h hok hact
  exact ⟨⟨hwired.names, hwired.provided, hwired.scbs, hwired.fresh, hwired.slow⟩,
    hgrows.workers, hgrows.services, hgrows.endpoints⟩

theorem wired_init : Wired initMicrokernel where
  names _ _ h := by cases h
  provided _ _ _ h := by cases h
  scbs _ _ _ h := by cases h
  fresh _ _ := rfl
  slow _ h := absurd rfl h

/-! ### Answers -/

/-- What a client may rely on in an answer: a service or an SCB is the one of the function that it
has asked for, and any other answer is that of the function that it has called. -/
def ReplyRight (w : World) (m : Microkernel) (r : UkernRequest) (reply : UkernReply) : Prop :=
  match r with
  | .coselect name =>
    ∀ obj s, reply.nsobj = some obj → obj.coservice = some s → ServiceRight m name s
  | .codiscover obj =>
    ∀ scb, reply.scbCap = some scb →
      ∃ s, obj.coservice = some s ∧ ∀ func, ServiceRight m func s → ScbRight m func scb
  | .codiscover2 s =>
    ∀ scb, reply.scbCap = some scb → ∀ func, ServiceRight m func s → ScbRight m func scb
  | .other func _ _ => ∃ d slow h, (func, h) ∈ endpointsOf d slow ∧ reply = w.answer h r

/-- `get_scb_index` changes nothing but the index of the next worker. -/
theorem finish_workerScbs {σ : Type} (fuel : Nat) (e e' : Endpoint σ) (pc : ScbPc) (index : Int)
    (h : e.finish fuel pc = some (e', index)) : e'.workerScbs = e.workerScbs := by
  induction fuel generalizing e pc with
  | zero =>
    cases pc with
    | returned i =>
      cases h
      rfl
    | entry | loop | reset => cases h
  | succ fuel ih =>
    have hnext : ∀ p, e.advance pc = some p → p.1.workerScbs = e.workerScbs := by
      intro p hp
      cases pc with
      | entry | loop =>
        cases hp
        rfl
      | reset i =>
        rw [Endpoint.advance] at hp
        split at hp <;> cases hp <;> rfl
      | returned i => cases hp
    cases pc with
    | returned i =>
      cases h
      rfl
    | entry | loop | reset =>
      obtain ⟨p, hp, hrest⟩ := Option.bind_eq_some_iff.mp h
      exact (ih p.1 p.2 hrest).trans (hnext p hp)

/-- Only the index of the next worker changes. -/
theorem grows_set {i : Nat} {e e' : Endpoint (Option WorkerScb)} (he : m.endpoints[i]? = some e)
    (hscbs : e'.workerScbs = e.workerScbs) :
    Grows m { m with endpoints := m.endpoints.set i e' } := by
  refine ⟨fun _ _ => id, fun _ _ => id, fun j ep hep => ?_⟩
  by_cases hij : i = j
  · subst hij
    rw [he] at hep
    cases hep
    exact ⟨e', List.getElem?_set_self (List.getElem?_eq_some_iff.mp he).1, hscbs⟩
  · exact ⟨ep, (List.getElem?_set_ne hij).trans hep, rfl⟩

/-- The microkernel has grown, and is as it should be. -/
theorem Wired.of_set (h : Wired m) {endpoints : List (Endpoint (Option WorkerScb))}
    (hgrows : Grows m { m with endpoints }) : Wired { m with endpoints } := by
  refine ⟨h.names_of_grows hgrows rfl, fun d slow e he => ?_, h.scbs, h.fresh, h.slow⟩
  obtain ⟨ep, hep, hscbs⟩ := h.provided d slow e he
  obtain ⟨ep', hep', heq⟩ := hgrows.endpoints e ep hep
  refine ⟨ep', hep', fun scb hscb => hscbs scb ?_⟩
  rw [← heq]
  exact hscb

/-- `get_coservice_scb` gives an SCB of the service. -/
theorem getCoserviceScb_spec (h : Wired m) {s : UkernService} {found : Option WorkerScb}
    (hget : m.getCoserviceScb s = some (found, m')) :
    Wired m' ∧ Grows m m' ∧
      ∀ scb, found = some scb → ∀ f, ServiceRight m' f s → ScbRight m' f scb := by
  obtain ⟨service, hservice, hget⟩ := Option.bind_eq_some_iff.mp hget
  obtain ⟨e, he, hget⟩ := Option.bind_eq_some_iff.mp hget
  obtain ⟨r, hr, hget⟩ := Option.bind_eq_some_iff.mp hget
  obtain ⟨scb', hscb', hget⟩ := Option.bind_eq_some_iff.mp hget
  cases hget
  have hscbs := finish_workerScbs 3 e r.1 .entry r.2 hr
  have hgrows := grows_set he hscbs
  refine ⟨h.of_set hgrows, hgrows, fun scb hfound f hright => ?_⟩
  subst hfound
  obtain ⟨-, -, service', e', hservice', he', hworkers⟩ := hright
  have hsame : service' = service := Option.some.inj (hservice'.symm.trans hservice)
  have hset : e' = r.1 := by
    rw [hsame] at he'
    exact Option.some.inj
      (he'.symm.trans (List.getElem?_set_self (List.getElem?_eq_some_iff.mp he).1))
  refine hworkers scb ?_
  rw [hset, hscbs]
  rw [Endpoint.getCoserviceScb] at hscb'
  split at hscb'
  · exact List.mem_of_getElem? hscb'
  · cases hscb'

/-- A service of another client gets into the way of no function. -/
theorem provideOther_wired (h : Wired m) (op : Nat) (slowpath : Bool)
    (scbs : List (Option WorkerScb)) :
    Wired { m with
      endpoints := m.endpoints ++ [⟨scbs, scbs.length, 0⟩]
      services := m.services ++ [⟨op, slowpath, m.endpoints.length⟩] } ∧
    Grows m { m with
      endpoints := m.endpoints ++ [⟨scbs, scbs.length, 0⟩]
      services := m.services ++ [⟨op, slowpath, m.endpoints.length⟩] } := by
  have hgrows : Grows m { m with
      endpoints := m.endpoints ++ [⟨scbs, scbs.length, 0⟩]
      services := m.services ++ [⟨op, slowpath, m.endpoints.length⟩] } :=
    ⟨fun _ _ => id, fun i s hs => getElem?_append_of_some hs _,
      fun i e he => ⟨e, getElem?_append_of_some he _, rfl⟩⟩
  refine ⟨⟨h.names_of_grows hgrows rfl, fun d slow e he => ?_, h.scbs, h.fresh, h.slow⟩, hgrows⟩
  obtain ⟨ep, hep, hscbs⟩ := h.provided d slow e he
  exact ⟨ep, getElem?_append_of_some hep _, hscbs⟩

/-- The step lemma. -/
theorem move_wired (h : Wired m) {ncpu : Nat} {a : Move} (hmove : m.move ncpu a = some m') :
    Wired m' ∧ Grows m m' := by
  cases a with
  | startup d started => exact wired_step h hmove
  | discover s =>
    obtain ⟨⟨found, m₁⟩, hget, rfl⟩ := Option.map_eq_some_iff.mp hmove
    obtain ⟨hwired, hgrows, -⟩ := getCoserviceScb_spec h hget
    exact ⟨hwired, hgrows⟩
  | provide op slowpath scbs =>
    cases hmove
    exact provideOther_wired h op slowpath scbs

theorem goOn_wired (h : Wired m) (ncpu : Nat) (moves : List Move) :
    Wired (m.goOn ncpu moves) ∧ Grows m (m.goOn ncpu moves) := by
  induction moves generalizing m with
  | nil => exact ⟨h, .refl m⟩
  | cons a rest ih =>
    rw [Microkernel.goOn]
    cases hmove : m.move ncpu a with
    | none => exact ih h
    | some m₁ =>
      obtain ⟨hwired, hgrows⟩ := move_wired h hmove
      obtain ⟨hrest, hgrows'⟩ := ih hwired
      exact ⟨hrest, hgrows.trans hgrows'⟩

/-- The function that is called answers right. -/
theorem serve_right (w : World) (h : Wired m) {r : UkernRequest} {handler : Handler}
    (hmem : (r.func, handler) ∈ endpointsOf d slow) :
    Wired (m.serve w handler r).2 ∧ Grows m (m.serve w handler r).2 ∧
      ∀ reply, (m.serve w handler r).1 = .returned reply →
        ReplyRight w (m.serve w handler r).2 r reply := by
  have hall : ∀ e ∈ endpointsOf d slow,
      (e.1 = .coselect → e.2 = .namespaceObjectSelect) ∧
        (e.1 = .codiscover → e.2 = .discoverCoservice) ∧
          (e.1 = .codiscover2 → e.2 = .discoverCoservice2) := by
    cases d <;> cases slow <;> decide
  obtain ⟨hselect, hdiscover, hdiscover2⟩ := hall _ hmem
  cases r with
  | coselect name =>
    obtain rfl : handler = .namespaceObjectSelect := hselect rfl
    simp only [Microkernel.serve]
    split
    next i hname =>
      split
      next s hs =>
        refine ⟨h, .refl m, fun reply hreply obj s' hobj hs' => ?_⟩
        cases hreply
        cases hobj
        cases hs'
        obtain ⟨s₁, hs₁, hright⟩ := h.names name i hname
        rw [hs] at hs₁
        cases hs₁
        exact hright
      next =>
        refine ⟨h, .refl m, fun reply hreply obj s' hobj _ => ?_⟩
        cases hreply
        cases hobj
    next =>
      refine ⟨h, .refl m, fun reply hreply obj s' hobj _ => ?_⟩
      cases hreply
      cases hobj
  | codiscover obj =>
    obtain rfl : handler = .discoverCoservice := hdiscover rfl
    simp only [Microkernel.serve]
    split
    next s hs =>
      split
      next scb m₁ hget =>
        obtain ⟨hwired, hgrows, hscb⟩ := getCoserviceScb_spec h hget
        refine ⟨hwired, hgrows, fun reply hreply scb' hreply' => ?_⟩
        cases hreply
        exact ⟨s, hs, hscb scb' hreply'⟩
      next =>
        refine ⟨h, .refl m, fun reply hreply scb' hreply' => ?_⟩
        cases hreply
        cases hreply'
    next =>
      refine ⟨h, .refl m, fun reply hreply scb' hreply' => ?_⟩
      cases hreply
      cases hreply'
  | codiscover2 s =>
    obtain rfl : handler = .discoverCoservice2 := hdiscover2 rfl
    simp only [Microkernel.serve]
    split
    next scb m₁ hget =>
      obtain ⟨hwired, hgrows, hscb⟩ := getCoserviceScb_spec h hget
      refine ⟨hwired, hgrows, fun reply hreply => ?_⟩
      cases hreply
      exact hscb
    next =>
      refine ⟨h, .refl m, fun reply hreply scb' hreply' => ?_⟩
      cases hreply
      cases hreply'
  | other func data hfunc =>
    have hsame : m.serve w handler (.other func data hfunc) =
        (.returned (w.answer handler (.other func data hfunc)), m) := by
      cases handler <;> rfl
    rw [hsame]
    refine ⟨h, .refl m, fun reply hreply => ?_⟩
    cases hreply
    exact ⟨d, slow, handler, hmem, rfl⟩

/-- A cocall to the right worker is answered right. -/
theorem cocall_right (w : World) {env : Env} (h : Wired env.ukernel) {c : TargetedCall}
    (hreaches : Reaches env.ukernel c) :
    Wired (Microkernel.cocall w env c).2.ukernel ∧
      Grows env.ukernel (Microkernel.cocall w env c).2.ukernel ∧
      ∀ reply, (Microkernel.cocall w env c).1 = .returned reply →
        ReplyRight w (Microkernel.cocall w env c).2.ukernel c.request reply := by
  obtain ⟨hwired, hgrows⟩ := goOn_wired h w.ncpu (w.happens env.time).moves
  unfold Microkernel.cocall
  dsimp only
  split
  · exact ⟨hwired, hgrows, fun reply hreply => by cases hreply⟩
  · obtain ⟨d, handler, hworker, hhandler, hmem⟩ := hreaches.mono hgrows
    have hdeliver : (env.ukernel.goOn w.ncpu (w.happens env.time).moves).deliver w c =
        (env.ukernel.goOn w.ncpu (w.happens env.time).moves).serve w handler c.request := by
      simp only [Microkernel.deliver, hworker, if_pos, hhandler]
    rw [hdeliver]
    obtain ⟨hwired', hgrows', hreply⟩ := serve_right w hwired hmem
    exact ⟨hwired', hgrows.trans hgrows', hreply⟩

end

end Comsg.Proofs.Ukernel
