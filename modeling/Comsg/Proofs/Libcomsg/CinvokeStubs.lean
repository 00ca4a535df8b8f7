import Comsg.Libcomsg.CinvokeStubs

/-!
# `Comsg.Proofs.Libcomsg.CinvokeStubs`: what a domain crossing gives and gets back

The hand-written code for a call of a coport function saves the caller's registers in a frame,
enters the sealed pair, and restores them from the frame at the end. The theorems:

* `enter_spec`: the pair is entered, with the arguments, with sealed capabilities to come back with,
  and without the capability that these were sealed with.
* `comeBack_spec`: when the called function returns with these two and the frame is untouched, the
  caller has its registers back.
* `Runs.keeps`: a run in which calls are nested to any depth leaves the kept memory, `cs5` and `cs6`
  alone. By induction on the nesting.
* `cinvoke_comesBack`: all of it for a call of each of the six functions.

`Runs` is what is asked of compiled code: a function has `cs5` and `cs6` back in place at its end,
and does not write to the frames of calls that are going on. `CanCall` is what is asked of the
caller.
-/

set_option autoImplicit false

namespace Comsg.Proofs.Libcomsg

open Comsg.Lib Comsg.Lib.Cheri
open Comsg.Libcomsg

/-- The frame of a call at the state `s`, in cells. -/
def frameCells (fp : Bool) (s : Machine) : Set Nat :=
  { cell | ((s.reg .csp).addr - cinvokeFrameSize fp) / sizeofCell ≤ cell ∧
    cell < (s.reg .csp).addr / sizeofCell }

/-- The frame holds what the state `s` had. -/
structure SavedFrame (fp ddc : Bool) (s : Machine) (mem : Nat → Cell) : Prop where
  regs : ∀ p ∈ frameRegs,
    getCap mem ((s.reg .csp).addr - capFrameSize + p.2 * sizeofCap) = s.reg p.1
  ddc : ddc = true →
    getCap mem ((s.reg .csp).addr - capFrameSize + ddcSlot * sizeofCap) = s.ddc
  floats : fp = true → ∀ k ∈ frameFloats,
    mem (((s.reg .csp).addr - cinvokeFrameSize fp + k * sizeofCell) / sizeofCell) = (s.fregs k).1

theorem frameRegs_slot : ∀ p ∈ frameRegs, p.2 < ddcSlot := by decide

theorem frameRegs_reg :
    ∀ p ∈ frameRegs, p.1 ≠ .cnull ∧ p.1 ≠ .csp ∧ p.1 ≠ .ct1 ∧ p.1 ≠ .ct3 ∧ p.1 ≠ .ca0 := by
  decide

theorem frameRegs_slots : (frameRegs.map Prod.snd).Nodup := by decide

theorem frameFloats_nodup : frameFloats.Nodup := List.nodup_range

theorem frameRegs_regs : (frameRegs.map Prod.fst).Nodup := by decide

section Frame

variable {fp ddc : Bool} {s : Machine}

/-- The memory with the frame in it. -/
def frameMem (fp ddc : Bool) (s : Machine) : Nat → Cell :=
  let addr := (s.reg .csp).addr
  let mem := saved s.reg (addr - capFrameSize) frameRegs s.mem
  let mem := if ddc then putCap mem (addr - capFrameSize + ddcSlot * sizeofCap) s.ddc else mem
  if fp then fsaved s.fregs (addr - cinvokeFrameSize fp) frameFloats mem else mem

theorem frameMem_true (ddc : Bool) (s : Machine) : frameMem true ddc s
    = fsaved s.fregs ((s.reg .csp).addr - cinvokeFrameSize true) frameFloats
        (frameMem false ddc s) := rfl

/-- The floating-point registers are below the capability registers. -/
theorem frameMem_above {cell : Nat} (hstack : Stack (cinvokeFrameSize fp) (s.reg .csp))
    (hcell : ((s.reg .csp).addr - capFrameSize) / sizeofCell ≤ cell) :
    frameMem fp ddc s cell = frameMem false ddc s cell := by
  cases fp with
  | false => rfl
  | true =>
    show fsaved _ _ _ _ cell = _
    rw [fsaved_outside]
    · rfl
    · intro k hk
      have hk12 : k < 12 := List.mem_range.mp hk
      have hroom := hstack.room
      have haligned := hstack.aligned
      simp only [cinvokeFrameSize, fpFrameSize, capFrameSize, sizeofCap, sizeofCell, if_true]
        at hroom haligned hcell ⊢
      omega

/-- The registers' slots are below the one of `ddc`. -/
theorem getCap_frameMem {k : Nat} (hstack : Stack (cinvokeFrameSize fp) (s.reg .csp))
    (hk : k < ddcSlot) :
    getCap (frameMem fp ddc s) ((s.reg .csp).addr - capFrameSize + k * sizeofCap)
      = getCap (saved s.reg ((s.reg .csp).addr - capFrameSize) frameRegs s.mem)
          ((s.reg .csp).addr - capFrameSize + k * sizeofCap) := by
  have hcell (cell : Nat)
      (hlow : ((s.reg .csp).addr - capFrameSize) / sizeofCell ≤ cell)
      (hhigh : cell < ((s.reg .csp).addr - capFrameSize + ddcSlot * sizeofCap) / sizeofCell) :
      frameMem fp ddc s cell
        = saved s.reg ((s.reg .csp).addr - capFrameSize) frameRegs s.mem cell := by
    rw [frameMem_above hstack hlow]
    cases ddc with
    | false => rfl
    | true => exact putCap_of_ne (Nat.ne_of_lt hhigh) (by omega)
  simp only [ddcSlot, sizeofCap, sizeofCell] at hk hcell
  apply getCap_congr
  · apply hcell <;> simp only [sizeofCap, sizeofCell] <;> omega
  · apply hcell <;> simp only [sizeofCap, sizeofCell] <;> omega

theorem savedFrame_frameMem (hstack : Stack (cinvokeFrameSize fp) (s.reg .csp)) :
    SavedFrame fp ddc s (frameMem fp ddc s) where
  regs := by
    intro p hp
    rw [getCap_frameMem hstack (frameRegs_slot p hp)]
    exact getCap_saved frameRegs_slots hp
  ddc := by
    intro hddc
    subst hddc
    rw [getCap_congr (frameMem_above hstack _) (frameMem_above hstack _)]
    · exact getCap_putCap _ _ _
    · exact Nat.div_le_div_right (Nat.le_add_right _ _)
    · exact Nat.le_succ_of_le (Nat.div_le_div_right (Nat.le_add_right _ _))
  floats := by
    intro hfp k hk
    subst hfp
    rw [frameMem_true, fsaved_of_mem frameFloats_nodup hk]

theorem frameMem_outside {cell : Nat} (hstack : Stack (cinvokeFrameSize fp) (s.reg .csp))
    (hcell : cell ∉ frameCells fp s) : frameMem fp ddc s cell = s.mem cell := by
  have hroom := hstack.room
  have haligned := hstack.aligned
  have hout : cell < ((s.reg .csp).addr - cinvokeFrameSize fp) / sizeofCell ∨
      (s.reg .csp).addr / sizeofCell ≤ cell := by
    by_cases hlow : ((s.reg .csp).addr - cinvokeFrameSize fp) / sizeofCell ≤ cell
    · exact .inr (Nat.le_of_not_lt fun hhigh => hcell ⟨hlow, hhigh⟩)
    · exact .inl (Nat.lt_of_not_le hlow)
  have hregs : saved s.reg ((s.reg .csp).addr - capFrameSize) frameRegs s.mem cell
      = s.mem cell := by
    apply saved_outside
    intro p hp
    have hp14 : p.2 < 14 := frameRegs_slot p hp
    simp only [cinvokeFrameSize, capFrameSize, sizeofCap, sizeofCell] at *
    omega
  have hddc : frameMem false ddc s cell = s.mem cell := by
    cases ddc with
    | false => exact hregs
    | true =>
      rw [← hregs]
      apply putCap_of_ne <;>
        simp only [cinvokeFrameSize, capFrameSize, sizeofCap, sizeofCell, ddcSlot] at * <;> omega
  cases fp with
  | false => exact hddc
  | true =>
    rw [← hddc]
    apply fsaved_outside
    intro k hk
    have hk12 : k < 12 := List.mem_range.mp hk
    simp only [cinvokeFrameSize, fpFrameSize, capFrameSize, sizeofCap, sizeofCell, if_true] at *
    omega

/-- A frame that nobody writes to stays. -/
theorem SavedFrame.congr {mem mem' : Nat → Cell}
    (hstack : Stack (cinvokeFrameSize fp) (s.reg .csp)) (hsaved : SavedFrame fp ddc s mem)
    (hsame : ∀ cell ∈ frameCells fp s, mem' cell = mem cell) : SavedFrame fp ddc s mem' := by
  have hroom := hstack.room
  have haligned := hstack.aligned
  have hcap {k : Nat} (hk : k < 15) :
      getCap mem' ((s.reg .csp).addr - capFrameSize + k * sizeofCap)
        = getCap mem ((s.reg .csp).addr - capFrameSize + k * sizeofCap) := by
    apply getCap_congr <;> apply hsame <;>
      simp only [frameCells, cinvokeFrameSize, capFrameSize, sizeofCap, sizeofCell,
        Set.mem_ofPred_eq] at * <;>
      omega
  refine ⟨?_, ?_, ?_⟩
  · intro p hp
    rw [hcap (Nat.lt_succ_of_lt (frameRegs_slot p hp))]
    exact hsaved.regs p hp
  · intro hddc
    rw [hcap (by decide)]
    exact hsaved.ddc hddc
  · intro hfp k hk
    rw [hsame]
    · exact hsaved.floats hfp k hk
    · have hk12 : k < 12 := List.mem_range.mp hk
      subst hfp
      simp only [frameCells, cinvokeFrameSize, fpFrameSize, capFrameSize, sizeofCap, sizeofCell,
        Set.mem_ofPred_eq, if_true] at *
      omega

end Frame

/-- The frame has been saved: the state `t` is `s` with the frame below its stack pointer. -/
structure FrameSaved (fp ddc : Bool) (s t : Machine) : Prop where
  csp : t.reg .csp = lower (s.reg .csp) (cinvokeFrameSize fp)
  regs : ∀ r, r ≠ .csp → r ≠ .ct1 → r ≠ .ct3 → t.reg r = s.reg r
  pcc : t.pcc = s.pcc
  sameDdc : t.ddc = s.ddc
  fregs : t.fregs = s.fregs
  mem : t.mem = frameMem fp ddc s

section Save

variable {fp ddc : Bool} {s : Machine}

theorem capFrameSize_le (fp : Bool) : capFrameSize ≤ cinvokeFrameSize fp := Nat.le_add_left _ _

/-- The capability registers. -/
theorem saveRegs (hstack : Stack (cinvokeFrameSize fp) (s.reg .csp)) :
    ∃ t, s.execAll ([.cgetoffset .ct3 .csp, .cincoffset .csp .csp (-capFrameSize)] ++
        saves .csp frameRegs) = some t ∧
      t.reg .csp = lower (s.reg .csp) capFrameSize ∧
      (∀ r, r ≠ .csp → r ≠ .ct3 → t.reg r = s.reg r) ∧
      t.pcc = s.pcc ∧ t.ddc = s.ddc ∧ t.fregs = s.fregs ∧
      t.mem = saved s.reg ((s.reg .csp).addr - capFrameSize) frameRegs s.mem := by
  let offset := intWord ((((s.reg .csp).addr : Int) - (s.reg .csp).base) % 2 ^ 64).toNat
  let t := (s.setReg .ct3 offset).setReg .csp (lower (s.reg .csp) capFrameSize)
  have htop : s.execAll [.cgetoffset .ct3 .csp, .cincoffset .csp .csp (-capFrameSize)] = some t := by
    show some ((s.setReg .ct3 offset).setReg .csp
      (incOffset ((s.setReg .ct3 offset).reg .csp) (-capFrameSize))) = some t
    rw [Machine.reg_setReg _ _ (by decide), if_neg (by decide),
      incOffset_lower hstack (capFrameSize_le fp)]
  have hcsp : t.reg .csp = lower (s.reg .csp) capFrameSize :=
    Machine.reg_setReg _ _ (by decide)
  have hregs (r : Reg) (hr : r ≠ .csp) (hr' : r ≠ .ct3) : t.reg r = s.reg r := by
    show ((s.setReg .ct3 offset).setReg .csp _).reg r = s.reg r
    rw [Machine.reg_setReg _ _ (by decide), if_neg hr, Machine.reg_setReg _ _ (by decide),
      if_neg hr']
  have hsaves := @execAll_saves frameRegs t .csp fun p hp => by
    rw [hcsp]
    have hslot : p.2 < 14 := frameRegs_slot p hp
    exact ⟨hstack.access (capFrameSize_le fp) (by decide) hstack.store
      (by simp only [capFrameSize, sizeofCap]; omega) (Nat.dvd_refl _) (Nat.dvd_mul_left _ _),
      hstack.storesTag _⟩
  refine ⟨_, (Machine.execAll_append htop).trans hsaves, hcsp, hregs, ?_, ?_, ?_, ?_⟩
  · simp [t]
  · simp [t]
  · simp [t]
  · rw [hcsp]
    show saved t.reg _ frameRegs t.mem = _
    rw [saved_congr fun p hp => hregs p.1 (frameRegs_reg p hp).2.1 (frameRegs_reg p hp).2.2.2.1]
    simp [t, lower]

/-- And `ddc`. -/
theorem saveCaps (hstack : Stack (cinvokeFrameSize fp) (s.reg .csp)) :
    ∃ t, s.execAll ([.cgetoffset .ct3 .csp, .cincoffset .csp .csp (-capFrameSize)] ++
        saves .csp frameRegs ++
        (if ddc then [.cspecialrDdc .ct1, .csc .ct1 (ddcSlot * sizeofCap) .csp] else []))
          = some t ∧
      t.reg .csp = lower (s.reg .csp) capFrameSize ∧
      (∀ r, r ≠ .csp → r ≠ .ct1 → r ≠ .ct3 → t.reg r = s.reg r) ∧
      t.pcc = s.pcc ∧ t.ddc = s.ddc ∧ t.fregs = s.fregs ∧ t.mem = frameMem false ddc s := by
  have ⟨t, hrun, hcsp, hregs, hpcc, hddc, hfregs, hmem⟩ := saveRegs hstack
  rw [Machine.execAll_append hrun]
  cases ddc with
  | false => exact ⟨t, rfl, hcsp, fun r hr _ hr' => hregs r hr hr', hpcc, hddc, hfregs, hmem⟩
  | true =>
    let t' := t.setReg .ct1 t.ddc
    have hcsp' : t'.reg .csp = lower (s.reg .csp) capFrameSize := by
      rw [Machine.reg_setReg _ _ (by decide), if_neg (by decide), hcsp]
    have hct1 : t'.reg .ct1 = s.ddc := by
      rw [Machine.reg_setReg _ _ (by decide), if_pos rfl, hddc]
    have haccess : Access (t'.reg .csp) permStore (ddcSlot * sizeofCap) sizeofCap ∧
        StoresTag (t'.reg .csp) (t'.reg .ct1) := by
      rw [hcsp']
      exact ⟨hstack.access (capFrameSize_le fp) (by decide) hstack.store (by decide)
        (Nat.dvd_refl _) (Nat.dvd_mul_left _ _), hstack.storesTag _⟩
    have hstore : t'.exec (.csc .ct1 (ddcSlot * sizeofCap) .csp) = some { t' with
        mem := putCap t'.mem ((t'.reg .csp).addr + ddcSlot * sizeofCap) (t'.reg .ct1) } :=
      if_pos haccess
    refine ⟨_, (Machine.execAll_cons rfl).trans (Machine.execAll_cons hstore), hcsp', ?_, ?_, ?_,
      ?_, ?_⟩
    · intro r hr hr' hr''
      show t'.reg r = s.reg r
      rw [Machine.reg_setReg _ _ (by decide), if_neg hr', hregs r hr hr'']
    · exact (Machine.setReg_pcc ..).trans hpcc
    · exact (Machine.setReg_ddc ..).trans hddc
    · exact (Machine.setReg_fregs ..).trans hfregs
    · show putCap t'.mem _ _ = _
      rw [hcsp', hct1, Machine.setReg_mem, hmem]
      rfl

/-- And the floating-point registers: the frame is complete. -/
theorem saveFrame_spec (hstack : Stack (cinvokeFrameSize fp) (s.reg .csp)) :
    ∃ t, s.execAll (saveFrame fp ddc) = some t ∧ FrameSaved fp ddc s t := by
  have ⟨t, hrun, hcsp, hregs, hpcc, hddc, hfregs, hmem⟩ := @saveCaps _ ddc _ hstack
  unfold saveFrame
  rw [Machine.execAll_append hrun]
  cases fp with
  | false => exact ⟨t, rfl, hcsp, hregs, hpcc, hddc, hfregs, hmem⟩
  | true =>
    have hsize : capFrameSize + fpFrameSize true = cinvokeFrameSize true := by decide
    let t' := t.setReg .csp (lower (s.reg .csp) (cinvokeFrameSize true))
    have hcsp' : t'.reg .csp = lower (s.reg .csp) (cinvokeFrameSize true) := by
      rw [Machine.reg_setReg _ _ (by decide), if_pos rfl]
    have hdown : t.exec (.cincoffset .csp .csp (-fpFrameSize true)) = some t' := by
      have hstack' := hstack.lowered (capFrameSize_le true) (by decide)
      show some (t.setReg .csp (incOffset (t.reg .csp) _)) = some t'
      rw [hcsp, incOffset_lower hstack' (by decide), lower_lower, hsize]
    have hfloats := @execAll_fsaves frameFloats t' .csp fun k hk => by
      rw [hcsp']
      have hk12 : k < 12 := List.mem_range.mp hk
      exact hstack.access (Nat.le_refl _) (by decide) hstack.store
        (by simp only [cinvokeFrameSize, fpFrameSize, capFrameSize, sizeofCap, sizeofCell,
              if_true]; omega)
        (by decide) (Nat.dvd_mul_left _ _)
    refine ⟨_, (Machine.execAll_cons hdown).trans hfloats, hcsp', ?_, ?_, ?_, ?_, ?_⟩
    · intro r hr hr' hr''
      show t'.reg r = s.reg r
      rw [Machine.reg_setReg _ _ (by decide), if_neg hr, hregs r hr hr' hr'']
    · exact (Machine.setReg_pcc ..).trans hpcc
    · exact (Machine.setReg_ddc ..).trans hddc
    · exact (Machine.setReg_fregs ..).trans hfregs
    · show fsaved t'.fregs _ _ t'.mem = _
      rw [hcsp', Machine.setReg_fregs, Machine.setReg_mem, hfregs, hmem]
      rfl

end Save

/-- What a caller of the function provides. -/
structure CanCall (fp : Bool) (label : Nat) (func : CinvokeFunc) (s : Machine) : Prop where
  stack : Stack (cinvokeFrameSize fp) (s.reg .csp)
  code : s.pcc.tag = true ∧ s.pcc.otype = none ∧ Meets s.pcc.perms permExecute ∧
    Meets s.pcc.perms permInvoke
  label : s.pcc.base ≤ label ∧ label < s.pcc.base + s.pcc.length ∧ label < 2 ^ 64
  sealcap : CanSeal (s.reg func.retSealcap) ∧ (s.reg func.retSealcap).addr ≠ otypeSentry
  target : Pairs (s.reg .ca0) (s.reg .ca1) ∧ Fetches (s.reg .ca0).unsealed
  back : Fetches (jumpTarget (s.reg .cra))

/-- The sealed return address of a call at `s`. -/
def returnCode (label : Nat) (func : CinvokeFunc) (s : Machine) : Word :=
  { s.pcc with addr := label, otype := some (s.reg func.retSealcap).addr }

/-- The sealed stack pointer that it returns to. -/
def returnStack (fp : Bool) (func : CinvokeFunc) (s : Machine) : Word :=
  { lower (s.reg .csp) (cinvokeFrameSize fp) with otype := some (s.reg func.retSealcap).addr }

/-- The called function has been entered from `s`, at the state `t`. -/
structure Entered (fp : Bool) (label : Nat) (func : CinvokeFunc) (s t : Machine) : Prop where
  pcc : t.pcc = (s.reg .ca0).unsealed
  port : t.reg .c31 = (s.reg .ca1).unsealed
  arguments : if func = .copipeReadyCinvoke then t.reg .ca0 = s.reg .ca1
    else t.reg .ca1 = s.reg .ca2 ∧ t.reg .ca2 = intWord (s.reg .ca4).addr
  sealcap : t.reg func.retSealcap = BoundedCap.null
  code : t.reg .cs6 = returnCode label func s
  stack : t.reg .cs5 = returnStack fp func s
  mem : t.mem = frameMem fp func.savesDdc s

section Enter

variable {fp : Bool} {label : Nat} {func : CinvokeFunc} {s : Machine}

theorem incOffset_label {pcc : Word} (htag : pcc.tag = true) (hsealed : pcc.otype = none)
    (hlabel : pcc.base ≤ label ∧ label < pcc.base + pcc.length ∧ label < 2 ^ 64) :
    incOffset pcc ((label : Int) - pcc.addr) = { pcc with addr := label } := by
  have haddr : ((pcc.addr : Int) + ((label : Int) - pcc.addr)) % 2 ^ 64 = (label : Int) := by omega
  have hbounds : (pcc.base : Int) ≤ (label : Int) ∧ (label : Int) ≤ pcc.base + pcc.length := by
    omega
  simp only [incOffset, haddr, Int.toNat_natCast, htag, hsealed, Option.isNone_none,
    Bool.true_and, decide_eq_true hbounds]

theorem sealReturn_spec {t : Machine} {ct : Reg}
    (hct : ct ≠ .cnull ∧ ct ≠ .cra ∧ ct ≠ .csp ∧ ct ≠ .cs5 ∧ ct ≠ .cs6 ∧ ct ≠ .ct5)
    (hcan : CanCall fp label func s) (hpcc : t.pcc = s.pcc)
    (hcsp : t.reg .csp = lower (s.reg .csp) (cinvokeFrameSize fp))
    (hcap : t.reg ct = s.reg func.retSealcap) :
    ∃ t', t.execAll (sealReturn label ct) = some t' ∧
      t'.reg .cs6 = returnCode label func s ∧ t'.reg .cs5 = returnStack fp func s ∧
      t'.reg ct = BoundedCap.null ∧
      (∀ r, r ≠ .cra → r ≠ .cs5 → r ≠ .cs6 → r ≠ .ct5 → r ≠ ct → t'.reg r = t.reg r) ∧
      t'.mem = t.mem := by
  have ⟨hnull, hcra, hcsp', hcs5, hcs6, hct5⟩ := hct
  have ⟨t1, e1, h1⟩ := exec_cllc t .cra label (by decide)
  have hcode1 : t1.reg .cra = { s.pcc with addr := label } := by
    rw [h1.reg, if_pos rfl, hpcc, incOffset_label hcan.code.1 hcan.code.2.1 hcan.label]
  have hcap1 : t1.reg ct = s.reg func.retSealcap := by
    rw [h1.reg, if_neg hcra, hcap]
  have hsealCode : Seals (t1.reg .cra) (t1.reg ct) := by
    rw [hcode1, hcap1]
    exact ⟨hcan.code.1, hcan.code.2.1, hcan.sealcap.1⟩
  have ⟨t2, e2, h2⟩ := exec_cseal .cra (by decide) hsealCode
  have hcode2 : t2.reg .cra = returnCode label func s := by
    rw [h2.reg, if_pos rfl, hcode1, hcap1]
    rfl
  have hcap2 : t2.reg ct = s.reg func.retSealcap := by
    rw [h2.reg, if_neg hcra, hcap1]
  have hstack2 : t2.reg .csp = lower (s.reg .csp) (cinvokeFrameSize fp) := by
    simp [h2.reg, h1.reg, hcsp]
  have hsealStack : Seals (t2.reg .csp) (t2.reg ct) := by
    rw [hstack2, hcap2]
    exact hcan.stack.seals hcan.sealcap.1
  have ⟨t3, e3, h3⟩ := exec_cseal .cs5 (by decide) hsealStack
  have ⟨t4, e4, h4⟩ := exec_cmove t3 ct .cnull hnull
  have ⟨t5, e5, h5⟩ := exec_cmove t4 .ct5 .cnull (by decide)
  have ⟨t6, e6, h6⟩ := exec_cmove t5 .cs6 .cra (by decide)
  have hrun : t.execAll (sealReturn label ct) = some t6 := by
    unfold sealReturn
    rw [Machine.execAll_cons e1, Machine.execAll_cons e2, Machine.execAll_cons e3,
      Machine.execAll_cons e4, Machine.execAll_cons e5, Machine.execAll_singleton e6]
  refine ⟨t6, hrun, ?_, ?_, ?_, ?_, ?_⟩
  · simp [h6.reg, h5.reg, h4.reg, h3.reg, hcode2, hcra.symm]
  · simp [h6.reg, h5.reg, h4.reg, h3.reg, hstack2, hcap2, hcs5.symm, returnStack]
  · rw [h6.reg, if_neg hcs6, h5.reg, if_neg hct5, h4.reg, if_pos rfl]
    rfl
  · intro r hr hr5 hr6 hrt hrc
    rw [h6.reg, if_neg hr6, h5.reg, if_neg hrt, h4.reg, if_neg hrc, h3.reg, if_neg hr5, h2.reg,
      if_neg hr, h1.reg, if_neg hr]
  · rw [h6.mem, h5.mem, h4.mem, h3.mem, h2.mem, h1.mem]

theorem passArguments_spec {ddc : Bool} {t : Machine} (hcan : CanCall fp label func s)
    (hseal : func.retSealcap = .ca3) (hsaved : FrameSaved fp ddc s t) :
    ∃ t', t.execAll (passArguments label) = some t' ∧ t'.pcc = (s.reg .ca0).unsealed ∧
      t'.reg .c31 = (s.reg .ca1).unsealed ∧ t'.reg .ca1 = s.reg .ca2 ∧
      t'.reg .ca2 = intWord (s.reg .ca4).addr ∧ t'.reg .ca3 = BoundedCap.null ∧
      t'.reg .cs6 = returnCode label func s ∧ t'.reg .cs5 = returnStack fp func s ∧
      t'.mem = t.mem := by
  have ha0 := hsaved.regs .ca0 (by decide) (by decide) (by decide)
  have ha1 := hsaved.regs .ca1 (by decide) (by decide) (by decide)
  have ha2 := hsaved.regs .ca2 (by decide) (by decide) (by decide)
  have ha3 := hsaved.regs .ca3 (by decide) (by decide) (by decide)
  have ha4 := hsaved.regs .ca4 (by decide) (by decide) (by decide)
  have ⟨t1, e1, h1⟩ := exec_cmove t .ct1 .ca0 (by decide)
  have ⟨t2, e2, h2⟩ := exec_cmove t1 .ct2 .ca1 (by decide)
  have ⟨t3, e3, h3⟩ := exec_cmove t2 .ca1 .ca2 (by decide)
  have ⟨t4, e4, h4⟩ := exec_move t3 .ca2 .ca4 (by decide)
  have hmoves : t.execAll [.cmove .ct1 .ca0, .cmove .ct2 .ca1, .cmove .ca1 .ca2, .move .ca2 .ca4]
      = some t4 := by
    rw [Machine.execAll_cons e1, Machine.execAll_cons e2, Machine.execAll_cons e3,
      Machine.execAll_singleton e4]
  have ⟨t5, e5, hcode, hstack, hcleared, hrest, hmem⟩ := @sealReturn_spec _ _ _ _ t4 .ca3
    (by decide) hcan (by rw [h4.pcc, h3.pcc, h2.pcc, h1.pcc, hsaved.pcc])
    (by simp [h4.reg, h3.reg, h2.reg, h1.reg, hsaved.csp])
    (by simp [h4.reg, h3.reg, h2.reg, h1.reg, ha3, hseal])
  have hcode5 : t5.reg .ct1 = s.reg .ca0 := by
    rw [hrest _ (by decide) (by decide) (by decide) (by decide) (by decide)]
    simp [h4.reg, h3.reg, h2.reg, h1.reg, ha0]
  have hport5 : t5.reg .ct2 = s.reg .ca1 := by
    rw [hrest _ (by decide) (by decide) (by decide) (by decide) (by decide)]
    simp [h4.reg, h3.reg, h2.reg, h1.reg, ha1]
  have ⟨t6, e6, hpcc6, hreg6, _, _, hmem6⟩ := @exec_cinvoke t5 .ct1 .ct2
    (by rw [hcode5, hport5]; exact hcan.target.1) (by rw [hcode5]; exact hcan.target.2)
  have hrun : t.execAll (passArguments label) = some t6 := by
    unfold passArguments
    rw [List.append_assoc, Machine.execAll_append hmoves, Machine.execAll_append e5,
      Machine.execAll_singleton e6]
  refine ⟨t6, hrun, by rw [hpcc6, hcode5], by rw [hreg6, if_pos rfl, hport5], ?_, ?_, ?_, ?_, ?_,
    ?_⟩
  · rw [hreg6, if_neg (by decide),
      hrest _ (by decide) (by decide) (by decide) (by decide) (by decide)]
    simp [h4.reg, h3.reg, h2.reg, h1.reg, ha2]
  · rw [hreg6, if_neg (by decide),
      hrest _ (by decide) (by decide) (by decide) (by decide) (by decide)]
    simp [h4.reg, h3.reg, h2.reg, h1.reg, ha4]
  · rw [hreg6, if_neg (by decide), hcleared]
  · rw [hreg6, if_neg (by decide), hcode]
  · rw [hreg6, if_neg (by decide), hstack]
  · rw [hmem6, hmem, h4.mem, h3.mem, h2.mem, h1.mem]

theorem passArgumentsReady_spec {ddc : Bool} {t : Machine} (hcan : CanCall fp label func s)
    (hseal : func.retSealcap = .ca2) (hsaved : FrameSaved fp ddc s t) :
    ∃ t', t.execAll (passArgumentsReady label) = some t' ∧ t'.pcc = (s.reg .ca0).unsealed ∧
      t'.reg .c31 = (s.reg .ca1).unsealed ∧ t'.reg .ca0 = s.reg .ca1 ∧
      t'.reg .ca2 = BoundedCap.null ∧ t'.reg .cs6 = returnCode label func s ∧
      t'.reg .cs5 = returnStack fp func s ∧ t'.mem = t.mem := by
  have ha0 := hsaved.regs .ca0 (by decide) (by decide) (by decide)
  have ha1 := hsaved.regs .ca1 (by decide) (by decide) (by decide)
  have ha2 := hsaved.regs .ca2 (by decide) (by decide) (by decide)
  have ⟨t1, e1, h1⟩ := exec_cmove t .ct1 .ca0 (by decide)
  have ⟨t2, e2, h2⟩ := exec_cmove t1 .ca0 .ca1 (by decide)
  have hmoves : t.execAll [.cmove .ct1 .ca0, .cmove .ca0 .ca1] = some t2 := by
    rw [Machine.execAll_cons e1, Machine.execAll_singleton e2]
  have ⟨t3, e3, hcode, hstack, hcleared, hrest, hmem⟩ := @sealReturn_spec _ _ _ _ t2 .ca2
    (by decide) hcan (by rw [h2.pcc, h1.pcc, hsaved.pcc])
    (by simp [h2.reg, h1.reg, hsaved.csp])
    (by simp [h2.reg, h1.reg, ha2, hseal])
  have hcode3 : t3.reg .ct1 = s.reg .ca0 := by
    rw [hrest _ (by decide) (by decide) (by decide) (by decide) (by decide)]
    simp [h2.reg, h1.reg, ha0]
  have hport3 : t3.reg .ca0 = s.reg .ca1 := by
    rw [hrest _ (by decide) (by decide) (by decide) (by decide) (by decide)]
    simp [h2.reg, h1.reg, ha1]
  have ⟨t4, e4, hpcc4, hreg4, _, _, hmem4⟩ := @exec_cinvoke t3 .ct1 .ca0
    (by rw [hcode3, hport3]; exact hcan.target.1) (by rw [hcode3]; exact hcan.target.2)
  have hrun : t.execAll (passArgumentsReady label) = some t4 := by
    unfold passArgumentsReady
    rw [List.append_assoc, Machine.execAll_append hmoves, Machine.execAll_append e3,
      Machine.execAll_singleton e4]
  refine ⟨t4, hrun, by rw [hpcc4, hcode3], by rw [hreg4, if_pos rfl, hport3], ?_, ?_, ?_, ?_, ?_⟩
  · rw [hreg4, if_neg (by decide), hport3]
  · rw [hreg4, if_neg (by decide), hcleared]
  · rw [hreg4, if_neg (by decide), hcode]
  · rw [hreg4, if_neg (by decide), hstack]
  · rw [hmem4, hmem, h2.mem, h1.mem]

/-- Every function enters what `codecap` and `coport` seal. -/
theorem enter_spec (hcan : CanCall fp label func s) :
    ∃ t, s.execAll (func.enter fp label) = some t ∧ Entered fp label func s t := by
  have ⟨t, hsave, hsaved⟩ := @saveFrame_spec _ func.savesDdc _ hcan.stack
  have harguments (hfunc : func ≠ .copipeReadyCinvoke) (hseal : func.retSealcap = .ca3)
      (henter : func.enter fp label = saveFrame fp func.savesDdc ++ passArguments label) :
      ∃ t, s.execAll (func.enter fp label) = some t ∧ Entered fp label func s t := by
    have ⟨t', hrun, hpcc, hport, hbuf, hlen, hcap, hcode, hstack, hmem⟩ :=
      passArguments_spec hcan hseal hsaved
    refine ⟨t', ?_, hpcc, hport, ?_, ?_, hcode, hstack, hmem.trans hsaved.mem⟩
    · rw [henter, Machine.execAll_append hsave, hrun]
    · rw [if_neg hfunc]
      exact ⟨hbuf, hlen⟩
    · rw [hseal, hcap]
  cases func with
  | coportCinvoke         => exact harguments (by decide) rfl rfl
  | copipeCosendCinvoke   => exact harguments (by decide) rfl rfl
  | copipeCorecvCinvoke   => exact harguments (by decide) rfl rfl
  | cochannelCosendCinvoke => exact harguments (by decide) rfl rfl
  | cochannelCorecvCinvoke => exact harguments (by decide) rfl rfl
  | copipeReadyCinvoke =>
    have ⟨t', hrun, hpcc, hport, harg, hcap, hcode, hstack, hmem⟩ :=
      passArgumentsReady_spec hcan rfl hsaved
    exact ⟨t', (Machine.execAll_append hsave).trans hrun, hpcc, hport, harg, hcap, hcode, hstack,
      hmem.trans hsaved.mem⟩

end Enter

/-- The state `u` is back after the call at `s` with the result `value`, from the state `t`. -/
structure Returned (fp ddc : Bool) (s t : Machine) (value : Word) (u : Machine) : Prop where
  pcc : u.pcc = jumpTarget (s.reg .cra)
  csp : u.reg .csp = s.reg .csp
  regs : ∀ p ∈ frameRegs, u.reg p.1 = s.reg p.1
  floats : fp = true → ∀ k ∈ frameFloats, u.fregs k = s.fregs k
  result : u.reg .ca0 = value
  mem : u.mem = t.mem
  sameDdc : u.ddc = if ddc then s.ddc else t.ddc

section Leave

variable {fp ddc : Bool} {label : Nat} {func : CinvokeFunc} {s t : Machine}

/-- The floating-point registers, and `csp` back at the capability registers. -/
theorem restoreFloats (hstack : Stack (cinvokeFrameSize fp) (s.reg .csp))
    (hsaved : SavedFrame fp ddc s t.mem)
    (hcsp : t.reg .csp = lower (s.reg .csp) (cinvokeFrameSize fp)) :
    ∃ u, t.execAll (if fp then
        frestores .csp frameFloats ++ [.cincoffset .csp .csp (fpFrameSize fp)]
      else []) = some u ∧
      u.reg .csp = lower (s.reg .csp) capFrameSize ∧ (∀ r, r ≠ .csp → u.reg r = t.reg r) ∧
      (fp = true → ∀ k ∈ frameFloats, u.fregs k = s.fregs k) ∧ u.mem = t.mem ∧
      u.ddc = t.ddc := by
  cases fp with
  | false =>
    have hsize : cinvokeFrameSize false = capFrameSize := by decide
    exact ⟨t, rfl, hsize ▸ hcsp, fun _ _ => rfl, fun h => absurd h (by decide), rfl, rfl⟩
  | true =>
    have hfloats := @execAll_frestores frameFloats t .csp fun k hk => by
      rw [hcsp]
      have hk12 : k < 12 := List.mem_range.mp hk
      exact hstack.access (Nat.le_refl _) (by decide) hstack.load
        (by simp only [cinvokeFrameSize, fpFrameSize, capFrameSize, sizeofCap, sizeofCell,
              if_true]; omega)
        (by decide) (Nat.dvd_mul_left _ _)
    let t' : Machine := { t with
      fregs := frestored t.mem (t.reg .csp).addr frameFloats t.fregs }
    have hup : t'.exec (.cincoffset .csp .csp (fpFrameSize true))
        = some (t'.setReg .csp (lower (s.reg .csp) capFrameSize)) := by
      show some (t'.setReg .csp (incOffset (t.reg .csp) _)) = _
      rw [hcsp, incOffset_raise hstack (Nat.le_refl _) (by decide)]
      rfl
    have hsets := setReg_sets (s := t') (r := .csp) (c := lower (s.reg .csp) capFrameSize)
      (by decide)
    refine ⟨_, (Machine.execAll_append hfloats).trans (Machine.execAll_singleton hup), ?_, ?_, ?_,
      hsets.mem, hsets.ddc⟩
    · rw [hsets.reg, if_pos rfl]
    · intro r hr
      rw [hsets.reg, if_neg hr]
      rfl
    · intro _ k hk
      apply Subtype.ext
      rw [hsets.fregs]
      show (frestored t.mem (t.reg .csp).addr frameFloats t.fregs k).1 = _
      rw [frestored_of_mem frameFloats_nodup hk, hcsp]
      have hcell := hsaved.floats rfl k hk
      show (t.mem (((s.reg .csp).addr - cinvokeFrameSize true + k * sizeofCell) / sizeofCell)).bytes
        = _
      rw [hcell]
      exact (s.fregs k).2

/-- The capability registers. -/
theorem restoreRegs (hstack : Stack (cinvokeFrameSize fp) (s.reg .csp))
    (hsaved : SavedFrame fp ddc s t.mem) (hcsp : t.reg .csp = lower (s.reg .csp) capFrameSize) :
    ∃ u, t.execAll (restores .csp frameRegs) = some u ∧
      u.reg .csp = t.reg .csp ∧ u.reg .ca0 = t.reg .ca0 ∧
      (∀ p ∈ frameRegs, u.reg p.1 = s.reg p.1) ∧ u.fregs = t.fregs ∧ u.mem = t.mem ∧
      u.ddc = t.ddc := by
  have hrun := @execAll_restores frameRegs t .csp
    (fun p hp => ⟨(frameRegs_reg p hp).2.1, (frameRegs_reg p hp).1⟩)
    (fun p hp => by
      rw [hcsp]
      have hslot : p.2 < 14 := frameRegs_slot p hp
      exact hstack.access (capFrameSize_le fp) (by decide) hstack.load
        (by simp only [capFrameSize, sizeofCap]; omega) (Nat.dvd_refl _) (Nat.dvd_mul_left _ _))
    (by rw [hcsp]; exact hstack.loadCap_lower)
  have hother {r : Reg} (hr : ∀ p ∈ frameRegs, r ≠ p.1) :
      restored t.mem (t.reg .csp).addr frameRegs t.regs r = t.regs r := restored_of_ne hr
  refine ⟨_, hrun, ?_, ?_, ?_, rfl, rfl, rfl⟩
  · exact hother (r := .csp) (by decide)
  · exact hother (r := .ca0) (by decide)
  · intro p hp
    show (if p.1 = .cnull then _ else restored t.mem (t.reg .csp).addr frameRegs t.regs p.1) = _
    rw [if_neg (frameRegs_reg p hp).1, restored_of_mem frameRegs_regs hp, hcsp]
    exact hsaved.regs p hp

theorem restoreFrame_spec (hstack : Stack (cinvokeFrameSize fp) (s.reg .csp))
    (hsaved : SavedFrame fp ddc s t.mem)
    (hc31 : t.reg .c31 = lower (s.reg .csp) (cinvokeFrameSize fp))
    (hback : Fetches (jumpTarget (s.reg .cra))) :
    ∃ u, t.execAll (restoreFrame fp ddc) = some u ∧ Returned fp ddc s t (t.reg .ca0) u := by
  have ⟨t1, e1, h1⟩ := exec_cmove t .csp .c31 (by decide)
  have ⟨t2, e2, hcsp2, hreg2, hfloats2, hmem2, hddc2⟩ := restoreFloats (t := t1) hstack
    (h1.mem.symm ▸ hsaved) (by rw [h1.reg, if_pos rfl, hc31])
  have hmem2t : t2.mem = t.mem := hmem2.trans h1.mem
  have ⟨t3, e3, hcsp3, hresult3, hregs3, hfregs3, hmem3, hddc3⟩ := restoreRegs (t := t2) hstack
    (hmem2t.symm ▸ hsaved) hcsp2
  have hmem3t : t3.mem = t.mem := hmem3.trans hmem2t
  have haccess : Access (t3.reg .csp) permLoad (ddcSlot * sizeofCap) sizeofCap := by
    rw [hcsp3, hcsp2]
    exact hstack.access (capFrameSize_le fp) (by decide) hstack.load (by decide)
      (Nat.dvd_refl _) (Nat.dvd_mul_left _ _)
  have hcaps : Meets (t3.reg .csp).perms permLoadCap := by
    rw [hcsp3, hcsp2]
    exact hstack.loadCap_lower
  let saved := getCap t3.mem ((t3.reg .csp).addr + ddcSlot * sizeofCap)
  have e4 : t3.exec (.clc .ct1 (ddcSlot * sizeofCap) .csp) = some (t3.setReg .ct1 saved) := by
    show (if _ then _ else _) = _
    rw [if_pos haccess, if_pos hcaps]
  have h4 := setReg_sets (s := t3) (r := .ct1) (c := saved) (by decide)
  have ⟨t5, e5, hreg5, hfregs5, hmem5, hddc5⟩ : ∃ t5,
      (t3.setReg .ct1 saved).execAll (if ddc then [.cspecialwDdc .ct1] else []) = some t5 ∧
      (∀ r, t5.reg r = (t3.setReg .ct1 saved).reg r) ∧ t5.fregs = t3.fregs ∧ t5.mem = t3.mem ∧
      t5.ddc = if ddc then s.ddc else t.ddc := by
    cases ddc with
    | false => exact ⟨_, rfl, fun _ => rfl, h4.fregs, h4.mem, by
        rw [h4.ddc, hddc3, hddc2, h1.ddc]; rfl⟩
    | true =>
      refine ⟨_, rfl, fun _ => rfl, h4.fregs, h4.mem, ?_⟩
      show (t3.setReg .ct1 saved).reg .ct1 = s.ddc
      rw [h4.reg, if_pos rfl]
      show getCap t3.mem _ = s.ddc
      rw [hmem3t, hcsp3, hcsp2]
      exact hsaved.ddc rfl
  have hreg5' (r : Reg) (hr : r ≠ .ct1) : t5.reg r = t3.reg r := by
    rw [hreg5, h4.reg, if_neg hr]
  have e6 : t5.exec (.cincoffset .csp .csp capFrameSize) = some (t5.setReg .csp (s.reg .csp)) := by
    show some (t5.setReg .csp (incOffset (t5.reg .csp) capFrameSize)) = _
    rw [hreg5' _ (by decide), hcsp3, hcsp2,
      incOffset_raise hstack (capFrameSize_le fp) (Nat.le_refl _), Nat.sub_self, lower_zero]
  have h6 := setReg_sets (s := t5) (r := .csp) (c := s.reg .csp) (by decide)
  have hregs6 (p : Reg × Nat) (hp : p ∈ frameRegs) :
      (t5.setReg .csp (s.reg .csp)).reg p.1 = s.reg p.1 := by
    rw [h6.reg, if_neg (frameRegs_reg p hp).2.1, hreg5' _ (frameRegs_reg p hp).2.2.1]
    exact hregs3 p hp
  have hcra6 := hregs6 (.cra, 12) (by decide)
  have e7 : (t5.setReg .csp (s.reg .csp)).exec (.cjr .cra)
      = some { t5.setReg .csp (s.reg .csp) with pcc := jumpTarget (s.reg .cra) } := by
    show (if Fetches (jumpTarget ((t5.setReg .csp (s.reg .csp)).reg .cra)) then _ else _) = _
    rw [hcra6, if_pos hback]
  have hrun : t.execAll (restoreFrame fp ddc)
      = some { t5.setReg .csp (s.reg .csp) with pcc := jumpTarget (s.reg .cra) } := by
    unfold restoreFrame
    simp only [List.cons_append, List.append_assoc]
    rw [Machine.execAll_cons e1, Machine.execAll_append e2, Machine.execAll_append e3,
      Machine.execAll_cons e4, Machine.execAll_append e5]
    exact (Machine.execAll_cons e6).trans (Machine.execAll_singleton e7)
  refine ⟨_, hrun, rfl, ?_, hregs6, ?_, ?_, ?_, ?_⟩
  · exact (h6.reg .csp).trans (if_pos rfl)
  · intro hfp k hk
    show (t5.setReg .csp (s.reg .csp)).fregs k = s.fregs k
    rw [h6.fregs, hfregs5, hfregs3]
    exact hfloats2 hfp k hk
  · show (t5.setReg .csp (s.reg .csp)).reg .ca0 = t.reg .ca0
    rw [h6.reg, if_neg (by decide), hreg5' _ (by decide), hresult3, hreg2 _ (by decide), h1.reg,
      if_neg (by decide)]
  · show (t5.setReg .csp (s.reg .csp)).mem = t.mem
    rw [h6.mem, hmem5, hmem3t]
  · exact h6.ddc.trans hddc5

variable {labels : CinvokeFunc → Nat}

theorem find_label (hlabels : Function.Injective labels) (func : CinvokeFunc) :
    (CinvokeFunc.all.find? fun f => labels f == labels func) = some func := by
  cases hfind : CinvokeFunc.all.find? fun f => labels f == labels func with
  | none =>
    have hall : func ∈ CinvokeFunc.all := by cases func <;> decide
    exact absurd (beq_self_eq_true _) (List.find?_eq_none.mp hfind func hall)
  | some f =>
    have hlabel : (labels f == labels func) = true :=
      List.find?_some (p := fun f => labels f == labels func) hfind
    rw [hlabels (eq_of_beq hlabel)]

/-- The called function comes back with what it was given in `cs5` and `cs6`. -/
theorem comeBack_spec (hlabels : Function.Injective labels)
    (hcan : CanCall fp (labels func) func s)
    (hcode : t.reg .cs6 = returnCode (labels func) func s)
    (hstack : t.reg .cs5 = returnStack fp func s)
    (hsaved : SavedFrame fp func.savesDdc s t.mem) (result : Reg) :
    ∃ u, comeBack fp labels result t = some u ∧
      Returned fp func.savesDdc s t (intWord (t.reg result).addr) u := by
  have ⟨t1, e1, h1⟩ := exec_move t .ca0 result (by decide)
  have hcode1 : t1.reg .cs6 = returnCode (labels func) func s := by
    rw [h1.reg, if_neg (by decide), hcode]
  have hstack1 : t1.reg .cs5 = returnStack fp func s := by
    rw [h1.reg, if_neg (by decide), hstack]
  have hpairs : Pairs (t1.reg .cs6) (t1.reg .cs5) := by
    rw [hcode1, hstack1]
    exact hcan.stack.pairs hcan.code.1
      hcan.code.2.2.2 hcan.sealcap.2
  have hfetches : Fetches (t1.reg .cs6).unsealed := by
    rw [hcode1]
    exact ⟨hcan.code.1, rfl, hcan.code.2.2.1, hcan.label.1, hcan.label.2.1⟩
  have ⟨t2, e2, hpcc2, hreg2, _, hddc2, hmem2⟩ := exec_cinvoke hpairs hfetches
  have hmem : t2.mem = t.mem := hmem2.trans h1.mem
  have hlabel : t2.pcc.addr = labels func := by
    rw [hpcc2, hcode1]
    rfl
  have hc31 : t2.reg .c31 = lower (s.reg .csp) (cinvokeFrameSize fp) := by
    rw [hreg2, if_pos rfl, hstack1]
    exact hcan.stack.unsealed_lower _
  have ⟨u, hrun, hback⟩ := restoreFrame_spec hcan.stack (hmem.symm ▸ hsaved) hc31 hcan.back
  have hcome : comeBack fp labels result t = some u := by
    have hend : t.execAll (ccallReturn result) = some t2 :=
      (Machine.execAll_cons e1).trans (Machine.execAll_singleton e2)
    simp only [comeBack, hend, hlabel, find_label hlabels func, Option.bind_eq_bind,
      Option.bind_some]
    exact hrun
  have hvalue : t2.reg .ca0 = intWord (t.reg result).addr := by
    rw [hreg2, if_neg (by decide), h1.reg, if_pos rfl]
  refine ⟨u, hcome, hback.pcc, hback.csp, hback.regs, hback.floats, hback.result.trans hvalue,
    hback.mem.trans hmem, ?_⟩
  rw [hback.sameDdc, hddc2, h1.ddc]

end Leave

/-- A run of compiled code that keeps the cells `K`.

* `body`: a function of its own. It saves registers as it likes, and has `cs5` and `cs6` back in
  place at its end. Within it more cells may be kept, its own frame for one.
* `call`: a domain crossing, with the run of the called function, which keeps the frame. -/
inductive Runs (fp : Bool) (labels : CinvokeFunc → Nat) : Set Nat → Machine → Machine → Prop
  | done (K : Set Nat) (s : Machine) : Runs fp labels K s s
  | body {K K' : Set Nat} {s t u v w : Machine} (hK : K ⊆ K')
      (hbegin : ∀ cell ∈ K, t.mem cell = s.mem cell) (hrun : Runs fp labels K' t u)
      (hend : ∀ cell ∈ K, v.mem cell = u.mem cell) (hcs5 : v.reg .cs5 = s.reg .cs5)
      (hcs6 : v.reg .cs6 = s.reg .cs6) (hrest : Runs fp labels K v w) : Runs fp labels K s w
  | call {K : Set Nat} {s t u v w : Machine} (func : CinvokeFunc) (result : Reg)
      (hcan : CanCall fp (labels func) func s)
      (henter : s.execAll (func.enter fp (labels func)) = some t)
      (hfresh : ∀ cell ∈ K, cell ∉ frameCells fp s)
      (hrun : Runs fp labels (K ∪ frameCells fp s) t u)
      (hback : comeBack fp labels result u = some v) (hrest : Runs fp labels K v w) :
      Runs fp labels K s w

section Runs

variable {fp : Bool} {labels : CinvokeFunc → Nat}

/-- A call comes back, whatever goes on meanwhile. -/
theorem call_comesBack {func : CinvokeFunc} {K : Set Nat} {s t u : Machine}
    (hlabels : Function.Injective labels) (hcan : CanCall fp (labels func) func s)
    (hentered : Entered fp (labels func) func s t)
    (hkept : ∀ cell ∈ K ∪ frameCells fp s, u.mem cell = t.mem cell)
    (hcs5 : u.reg .cs5 = t.reg .cs5) (hcs6 : u.reg .cs6 = t.reg .cs6) (result : Reg) :
    ∃ v, comeBack fp labels result u = some v ∧
      Returned fp func.savesDdc s u (intWord (u.reg result).addr) v := by
  have hsaved : SavedFrame fp func.savesDdc s t.mem :=
    hentered.mem ▸ savedFrame_frameMem hcan.stack
  exact comeBack_spec hlabels hcan (hcs6.trans hentered.code) (hcs5.trans hentered.stack)
    (hsaved.congr hcan.stack fun cell hcell => hkept cell (.inr hcell)) result

/-- What a run keeps, by induction on how calls are nested in it. -/
theorem Runs.keeps {K : Set Nat} {s t : Machine} (hlabels : Function.Injective labels)
    (h : Runs fp labels K s t) :
    (∀ cell ∈ K, t.mem cell = s.mem cell) ∧ t.reg .cs5 = s.reg .cs5 ∧
      t.reg .cs6 = s.reg .cs6 := by
  induction h with
  | done K s => exact ⟨fun _ _ => rfl, rfl, rfl⟩
  | body hK hbegin _ hend hcs5 hcs6 _ ih ihrest =>
    have ⟨hmem, hrest5, hrest6⟩ := ihrest
    refine ⟨fun cell hcell => ?_, hrest5.trans hcs5, hrest6.trans hcs6⟩
    rw [hmem cell hcell, hend cell hcell, ih.1 cell (hK hcell), hbegin cell hcell]
  | call func result hcan henter hfresh _ hback _ ih ihrest =>
    have ⟨t', henter', hentered⟩ := enter_spec hcan
    cases Option.some.inj (henter'.symm.trans henter)
    have ⟨v', hback', hreturned⟩ :=
      call_comesBack hlabels hcan hentered ih.1 ih.2.1 ih.2.2 result
    cases Option.some.inj (hback'.symm.trans hback)
    have ⟨hmem, hrest5, hrest6⟩ := ihrest
    refine ⟨fun cell hcell => ?_, hrest5.trans (hreturned.regs (.cs5, 5) (by decide)),
      hrest6.trans (hreturned.regs (.cs6, 6) (by decide))⟩
    rw [hmem cell hcell, hreturned.mem, ih.1 cell (.inl hcell), hentered.mem]
    exact frameMem_outside hcan.stack (hfresh cell hcell)

/-- A domain crossing enters the function that `codecap` and `coport` seal. It clears the sealing
capability, and it writes to its frame only. Whatever calls are nested in that function, the
crossing comes back to its caller, with the caller's stack, registers and kept memory as they
were. -/
theorem cinvoke_comesBack (func : CinvokeFunc) (s : Machine)
    (hlabels : Function.Injective labels) (hcan : CanCall fp (labels func) func s) :
    ∃ t, s.execAll (func.enter fp (labels func)) = some t ∧
      Entered fp (labels func) func s t ∧
      (∀ cell ∉ frameCells fp s, t.mem cell = s.mem cell) ∧
      ∀ (K : Set Nat) (u : Machine) (result : Reg), (∀ cell ∈ K, cell ∉ frameCells fp s) →
        Runs fp labels (K ∪ frameCells fp s) t u →
        ∃ v, comeBack fp labels result u = some v ∧
          Returned fp func.savesDdc s u (intWord (u.reg result).addr) v ∧
          ∀ cell ∈ K, v.mem cell = s.mem cell := by
  have ⟨t, henter, hentered⟩ := enter_spec hcan
  have houtside (cell : Nat) (hcell : cell ∉ frameCells fp s) : t.mem cell = s.mem cell := by
    rw [hentered.mem]
    exact frameMem_outside hcan.stack hcell
  refine ⟨t, henter, hentered, houtside, ?_⟩
  intro K u result hfresh hrun
  have ⟨hmem, hcs5, hcs6⟩ := hrun.keeps hlabels
  have ⟨v, hback, hreturned⟩ := call_comesBack hlabels hcan hentered hmem hcs5 hcs6 result
  refine ⟨v, hback, hreturned, fun cell hcell => ?_⟩
  rw [hreturned.mem, hmem cell (.inl hcell)]
  exact houtside cell (hfresh cell hcell)

end Runs

/-! A thread that sends on a port. -/

/-- Return labels. -/
def crossingLabels (func : CinvokeFunc) : Nat := 0x10000 + 4 * func.ctorIdx

theorem crossingLabels_injective : Function.Injective crossingLabels := by
  intro func func' h
  cases func <;> cases func' <;> first | rfl | exact absurd h (by decide)

/-- `csp` has a frame's room, `ca0` and `ca1` are a sealed pair, and `ca3` seals. -/
def crossing : Machine where
  pcc := ⟨true, none, 0x10000, 0x1000, 0x10800, permExecute ||| permInvoke⟩
  regs
    | .csp => ⟨true, none, 0x40000, 0x1000, 0x40800, permLoad ||| permStore ||| permLoadCap |||
        permStoreCap ||| permStoreLocalCap ||| permInvoke⟩
    | .ca0 => ⟨true, some 32, 0x20000, 0x1000, 0x20000, permExecute ||| permInvoke⟩
    | .ca1 => ⟨true, some 32, 0x30000, 0x100, 0x30000, permLoad ||| permStore ||| permInvoke⟩
    | .ca2 => ⟨true, none, 0x50000, 0x100, 0x50000, permLoad⟩
    | .ca3 => ⟨true, none, 0x100, 1, 0x100, permSeal⟩
    | .ca4 => intWord 0x100
    | .cra => ⟨true, some otypeSentry, 0x10000, 0x1000, 0x10900, permExecute⟩
    | _    => BoundedCap.null
  fregs _ := ⟨.word 0, rfl⟩
  ddc := BoundedCap.null
  mem _ := .word 0

theorem crossing_canCall : CanCall true (crossingLabels .copipeCosendCinvoke) .copipeCosendCinvoke
    crossing where
  stack := by constructor <;> decide
  code := by decide
  label := by decide
  sealcap := by decide
  target := by decide
  back := by decide

theorem cinvoke_comesBack_crossing :
    ∃ t u, crossing.execAll (CinvokeFunc.copipeCosendCinvoke.enter true
        (crossingLabels .copipeCosendCinvoke)) = some t ∧
      comeBack true crossingLabels .ca0 t = some u ∧ u.reg .csp = crossing.reg .csp := by
  have ⟨t, henter, _, _, hcall⟩ := cinvoke_comesBack .copipeCosendCinvoke crossing
    crossingLabels_injective crossing_canCall
  have ⟨u, hback, hreturned, _⟩ := hcall ∅ t .ca0 (fun _ hcell => hcell.elim) (.done _ t)
  exact ⟨t, u, henter, hback, hreturned.csp⟩

end Comsg.Proofs.Libcomsg
