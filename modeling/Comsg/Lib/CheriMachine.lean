import Comsg.Lib.Sealing
import Mathlib.Data.List.Nodup
import Mathlib.Logic.Function.Basic

/-!
# `Comsg.Lib.CheriMachine`: a machine with capability registers

The part of CHERI-RISC-V that hand-written entry code uses, in capability mode: the registers hold
capabilities, an integer is the address of one without a tag. `exec` is one instruction and
`execAll` a list of them. `none` stands for an exception.

Memory is in cells of eight bytes. A capability takes up two of them, and is whole again only when
both halves are still there. So a store of one half by an integer or a floating-point register
takes the tag away.

* `cincoffset` keeps the tag while the address stays within the bounds. Hardware keeps it a little
  further, up to where the bounds can be represented.
* `cinvoke` enters a sealed pair: both are unsealed, the code goes to the program counter and the
  data to `c31`.
* `cjr` jumps to a capability, or to a sealed entry, which it unseals.

`execAll_saves` and `execAll_restores` are the rules for the prologue and the epilogue of a frame.
With `getCap_saved`, what was saved in distinct slots is read back. `Stack` is a stack capability
with room for a frame.
-/

set_option autoImplicit false

namespace Comsg.Lib

/-- The permission bits of `cherireg.h` for code. -/
def permExecute : Perms := BitVec.twoPow 32 1
def permInvoke : Perms := BitVec.twoPow 32 8

namespace Cheri

/-- The object type of a sealed entry. -/
def otypeSentry : Nat := 2 ^ 64 - 2

/-- An integer in a capability register. -/
def intWord (v : Nat) : Word := { (BoundedCap.null : Word) with addr := v }

/-- The capability registers. `c31` is the data register of `cinvoke`. -/
inductive Reg
  | cnull
  | cra | csp | cgp | ctp
  | ct0 | ct1 | ct2 | ct3 | ct4 | ct5
  | ca0 | ca1 | ca2 | ca3 | ca4 | ca5 | ca6 | ca7
  | cs0 | cs1 | cs2 | cs3 | cs4 | cs5 | cs6 | cs7 | cs8 | cs9 | cs10 | cs11
  | c31
  deriving DecidableEq, Repr

/-- Eight bytes of memory, or a floating-point register: a number, or half of a capability. -/
inductive Cell
  | word (v : BitVec 64)
  | half (c : Word) (high : Bool)
  deriving DecidableEq

/-- The bytes without the tag. -/
def Cell.bytes : Cell → Cell
  | .word v      => .word v
  | .half c high => .half c.untagged high

@[simp] theorem Cell.bytes_bytes (c : Cell) : c.bytes.bytes = c.bytes := by
  cases c <;> rfl

/-- What a floating-point register holds: eight bytes, never a tag. -/
abbrev Bytes := { c : Cell // c.bytes = c }

structure Machine where
  pcc : Word
  regs : Reg → Word
  fregs : Nat → Bytes
  ddc : Word
  mem : Nat → Cell

def sizeofCap : Nat := 16
def sizeofCell : Nat := 8

/-- The instructions. The offsets of loads and stores are in bytes. -/
inductive Instr
  | cgetoffset (rd cs : Reg)
  | cincoffset (cd cs : Reg) (imm : Int)
  | csc (cs : Reg) (offset : Nat) (cb : Reg)
  | clc (cd : Reg) (offset : Nat) (cb : Reg)
  | cfsd (fs offset : Nat) (cb : Reg)
  | cfld (fd offset : Nat) (cb : Reg)
  | cspecialrDdc (cd : Reg)
  | cspecialwDdc (cs : Reg)
  | cmove (cd cs : Reg)
  | move (rd rs : Reg)
  | cllc (cd : Reg) (label : Nat)
  | cseal (cd cs ct : Reg)
  | cinvoke (cs cb : Reg)
  | cjr (cs : Reg)
  deriving DecidableEq, Repr

/-! ### Capabilities -/

/-- `cincoffset`. -/
def incOffset (c : Word) (imm : Int) : Word :=
  let addr := ((c.addr : Int) + imm) % 2 ^ 64
  { c with
    addr := addr.toNat
    tag := c.tag && c.otype.isNone && decide ((c.base : Int) ≤ addr ∧ addr ≤ c.base + c.length) }

/-- An access of `size` bytes at `offset`, with the permission. -/
def Access (c : Word) (perm : Perms) (offset size : Nat) : Prop :=
  c.tag = true ∧ c.otype = none ∧ Meets c.perms perm ∧ c.base ≤ c.addr + offset ∧
    c.addr + offset + size ≤ c.base + c.length ∧ (c.addr + offset) % size = 0

instance (c : Word) (perm : Perms) (offset size : Nat) : Decidable (Access c perm offset size) :=
  inferInstanceAs (Decidable (_ ∧ _))

/-- A store of the capability `v` through `c` is permitted. -/
def StoresTag (c v : Word) : Prop :=
  v.tag = true → Meets c.perms permStoreCap ∧
    (Meets v.perms permGlobal ∨ Meets c.perms permStoreLocalCap)

instance (c v : Word) : Decidable (StoresTag c v) := inferInstanceAs (Decidable (_ → _))

/-- The capability can be jumped to. -/
def Fetches (c : Word) : Prop :=
  c.tag = true ∧ c.otype = none ∧ Meets c.perms permExecute ∧ c.base ≤ c.addr ∧
    c.addr < c.base + c.length

instance (c : Word) : Decidable (Fetches c) := inferInstanceAs (Decidable (_ ∧ _))

/-- The two capabilities are a sealed pair of code and data. -/
def Pairs (code data : Word) : Prop :=
  code.tag = true ∧ data.tag = true ∧ code.otype.isSome = true ∧ code.otype = data.otype ∧
    code.otype ≠ some otypeSentry ∧ Meets code.perms permInvoke ∧ Meets data.perms permInvoke ∧
    ¬Meets data.perms permExecute

instance (code data : Word) : Decidable (Pairs code data) := inferInstanceAs (Decidable (_ ∧ _))

/-- Where a jump to the capability goes. -/
def jumpTarget (c : Word) : Word := if c.otype = some otypeSentry then c.unsealed else c

/-! ### Memory -/

/-- The store of a capability. -/
def putCap (mem : Nat → Cell) (addr : Nat) (c : Word) : Nat → Cell :=
  Function.update (Function.update mem (addr / sizeofCell) (.half c false))
    (addr / sizeofCell + 1) (.half c true)

/-- The load of a capability. -/
def getCap (mem : Nat → Cell) (addr : Nat) : Word :=
  match mem (addr / sizeofCell), mem (addr / sizeofCell + 1) with
  | .half c false, .half c' true => if c = c' then c else c.untagged
  | .half c _, _                 => c.untagged
  | .word v, _                   => intWord v.toNat

namespace Machine

def setReg (s : Machine) (r : Reg) (c : Word) : Machine :=
  if r = .cnull then s else { s with regs := Function.update s.regs r c }

section SetReg

variable (s : Machine) (r : Reg) (c : Word)

@[simp] theorem setReg_pcc : (s.setReg r c).pcc = s.pcc := by
  unfold setReg
  split <;> rfl

@[simp] theorem setReg_fregs : (s.setReg r c).fregs = s.fregs := by
  unfold setReg
  split <;> rfl

@[simp] theorem setReg_ddc : (s.setReg r c).ddc = s.ddc := by
  unfold setReg
  split <;> rfl

@[simp] theorem setReg_mem : (s.setReg r c).mem = s.mem := by
  unfold setReg
  split <;> rfl

end SetReg

/-- A read of a register. `cnull` is always null. -/
def reg (s : Machine) (r : Reg) : Word := if r = .cnull then BoundedCap.null else s.regs r

@[simp] theorem reg_setReg {r r' : Reg} (s : Machine) (c : Word) (h : r ≠ .cnull) :
    (s.setReg r c).reg r' = if r' = r then c else s.reg r' := by
  rw [setReg, if_neg h]
  by_cases hr : r' = r
  · rw [if_pos hr, hr, reg, if_neg h]
    exact Function.update_self _ _ _
  · rw [if_neg hr, reg, reg]
    exact if_congr Iff.rfl rfl (Function.update_of_ne hr _ _)

/-- One instruction. -/
def exec (s : Machine) : Instr → Option Machine
  | .cgetoffset rd cs =>
    let c := s.reg cs
    some (s.setReg rd (intWord (((c.addr : Int) - c.base) % 2 ^ 64).toNat))
  | .cincoffset cd cs imm => some (s.setReg cd (incOffset (s.reg cs) imm))
  | .csc cs offset cb =>
    let c := s.reg cb
    if Access c permStore offset sizeofCap ∧ StoresTag c (s.reg cs) then
      some { s with mem := putCap s.mem (c.addr + offset) (s.reg cs) }
    else none
  | .clc cd offset cb =>
    let c := s.reg cb
    if Access c permLoad offset sizeofCap then
      let v := getCap s.mem (c.addr + offset)
      some (s.setReg cd (if Meets c.perms permLoadCap then v else v.untagged))
    else none
  | .cfsd fs offset cb =>
    let c := s.reg cb
    if Access c permStore offset sizeofCell then
      some { s with
        mem := Function.update s.mem ((c.addr + offset) / sizeofCell) (s.fregs fs).1 }
    else none
  | .cfld fd offset cb =>
    let c := s.reg cb
    if Access c permLoad offset sizeofCell then
      some { s with
        fregs := Function.update s.fregs fd
          ⟨(s.mem ((c.addr + offset) / sizeofCell)).bytes, Cell.bytes_bytes _⟩ }
    else none
  | .cspecialrDdc cd => some (s.setReg cd s.ddc)
  | .cspecialwDdc cs => some { s with ddc := s.reg cs }
  | .cmove cd cs     => some (s.setReg cd (s.reg cs))
  | .move rd rs      => some (s.setReg rd (intWord (s.reg rs).addr))
  | .cllc cd label   => some (s.setReg cd (incOffset s.pcc ((label : Int) - s.pcc.addr)))
  | .cseal cd cs ct  =>
    if Seals (s.reg cs) (s.reg ct) then
      some (s.setReg cd { s.reg cs with otype := some (s.reg ct).addr })
    else none
  | .cinvoke cs cb =>
    if Pairs (s.reg cs) (s.reg cb) ∧ Fetches (s.reg cs).unsealed then
      some { s.setReg .c31 (s.reg cb).unsealed with pcc := (s.reg cs).unsealed }
    else none
  | .cjr cs =>
    let target := jumpTarget (s.reg cs)
    if Fetches target then some { s with pcc := target } else none

/-- A list of instructions, one after the other. -/
def execAll (s : Machine) : List Instr → Option Machine
  | []      => some s
  | i :: is => (s.exec i).bind fun s' => s'.execAll is

theorem execAll_append {is js : List Instr} {s t : Machine} (h : s.execAll is = some t) :
    s.execAll (is ++ js) = t.execAll js := by
  induction is generalizing s with
  | nil =>
    cases h
    rfl
  | cons i is ih =>
    obtain ⟨s', hs', hrest⟩ := Option.bind_eq_some_iff.mp h
    show ((s.exec i).bind fun s' => s'.execAll (is ++ js)) = _
    rw [hs', Option.bind_some]
    exact ih hrest

theorem execAll_cons {i : Instr} {is : List Instr} {s t : Machine} (h : s.exec i = some t) :
    s.execAll (i :: is) = t.execAll is := by
  show ((s.exec i).bind fun s' => s'.execAll is) = _
  rw [h, Option.bind_some]

end Machine

/-! ### Moves and seals, one instruction at a time -/

/-- The state `t` is `s` with `c` in the register `r`. -/
structure Sets (s t : Machine) (r : Reg) (c : Word) : Prop where
  reg : ∀ r', t.reg r' = if r' = r then c else s.reg r'
  pcc : t.pcc = s.pcc
  fregs : t.fregs = s.fregs
  ddc : t.ddc = s.ddc
  mem : t.mem = s.mem

theorem setReg_sets {s : Machine} {r : Reg} {c : Word} (h : r ≠ .cnull) :
    Sets s (s.setReg r c) r c :=
  ⟨fun _ => Machine.reg_setReg s c h, Machine.setReg_pcc s r c, Machine.setReg_fregs s r c,
    Machine.setReg_ddc s r c, Machine.setReg_mem s r c⟩

theorem exec_cmove (s : Machine) (cd cs : Reg) (h : cd ≠ .cnull) :
    ∃ t, s.exec (.cmove cd cs) = some t ∧ Sets s t cd (s.reg cs) :=
  ⟨_, rfl, setReg_sets h⟩

theorem exec_move (s : Machine) (rd rs : Reg) (h : rd ≠ .cnull) :
    ∃ t, s.exec (.move rd rs) = some t ∧ Sets s t rd (intWord (s.reg rs).addr) :=
  ⟨_, rfl, setReg_sets h⟩

theorem exec_cllc (s : Machine) (cd : Reg) (label : Nat) (h : cd ≠ .cnull) :
    ∃ t, s.exec (.cllc cd label) = some t ∧
      Sets s t cd (incOffset s.pcc ((label : Int) - s.pcc.addr)) :=
  ⟨_, rfl, setReg_sets h⟩

theorem exec_cseal {s : Machine} {cs ct : Reg} (cd : Reg) (h : cd ≠ .cnull)
    (hseals : Seals (s.reg cs) (s.reg ct)) :
    ∃ t, s.exec (.cseal cd cs ct) = some t ∧
      Sets s t cd { s.reg cs with otype := some (s.reg ct).addr } :=
  ⟨_, if_pos hseals, setReg_sets h⟩

theorem exec_cinvoke {s : Machine} {cs cb : Reg} (hpairs : Pairs (s.reg cs) (s.reg cb))
    (hfetches : Fetches (s.reg cs).unsealed) :
    ∃ t, s.exec (.cinvoke cs cb) = some t ∧ t.pcc = (s.reg cs).unsealed ∧
      (∀ r, t.reg r = if r = .c31 then (s.reg cb).unsealed else s.reg r) ∧
      t.fregs = s.fregs ∧ t.ddc = s.ddc ∧ t.mem = s.mem := by
  have hsets := setReg_sets (s := s) (r := .c31) (c := (s.reg cb).unsealed) (by decide)
  exact ⟨_, if_pos ⟨hpairs, hfetches⟩, rfl, hsets.reg, hsets.fregs, hsets.ddc, hsets.mem⟩

theorem Machine.execAll_singleton {s t : Machine} {i : Instr} (h : s.exec i = some t) :
    s.execAll [i] = some t :=
  Machine.execAll_cons h

/-! ### Frames -/

/-- The prologue's stores: a register and its slot. -/
def saves (cb : Reg) (slots : List (Reg × Nat)) : List Instr :=
  slots.map fun p => .csc p.1 (p.2 * sizeofCap) cb

def restores (cb : Reg) (slots : List (Reg × Nat)) : List Instr :=
  slots.map fun p => .clc p.1 (p.2 * sizeofCap) cb

/-- The memory after the saves. -/
def saved (regs : Reg → Word) (addr : Nat) (slots : List (Reg × Nat)) (mem : Nat → Cell) :
    Nat → Cell :=
  slots.foldl (fun mem p => putCap mem (addr + p.2 * sizeofCap) (regs p.1)) mem

/-- The registers after the restores. -/
def restored (mem : Nat → Cell) (addr : Nat) (slots : List (Reg × Nat)) (regs : Reg → Word) :
    Reg → Word :=
  slots.foldl (fun regs p => Function.update regs p.1 (getCap mem (addr + p.2 * sizeofCap))) regs

theorem saved_congr {regs regs' : Reg → Word} {addr : Nat} {slots : List (Reg × Nat)}
    {mem : Nat → Cell} (h : ∀ p ∈ slots, regs p.1 = regs' p.1) :
    saved regs addr slots mem = saved regs' addr slots mem := by
  induction slots generalizing mem with
  | nil => rfl
  | cons q qs ih =>
    show saved regs addr qs (putCap mem _ (regs q.1)) = saved regs' addr qs (putCap mem _ _)
    rw [h q List.mem_cons_self]
    exact ih fun p hp => h p (List.mem_cons_of_mem q hp)

theorem getCap_putCap (mem : Nat → Cell) (addr : Nat) (c : Word) :
    getCap (putCap mem addr c) addr = c := by
  simp [getCap, putCap]

theorem putCap_of_ne {mem : Nat → Cell} {addr cell : Nat} {c : Word}
    (h : cell ≠ addr / sizeofCell) (h' : cell ≠ addr / sizeofCell + 1) :
    putCap mem addr c cell = mem cell := by
  rw [putCap, Function.update_of_ne h', Function.update_of_ne h]

/-- A load looks at its two cells only. -/
theorem getCap_congr {mem mem' : Nat → Cell} {addr : Nat}
    (h : mem (addr / sizeofCell) = mem' (addr / sizeofCell))
    (h' : mem (addr / sizeofCell + 1) = mem' (addr / sizeofCell + 1)) :
    getCap mem addr = getCap mem' addr := by
  rw [getCap, getCap, h, h']

section Saves

variable {regs : Reg → Word} {addr : Nat} {slots : List (Reg × Nat)} {mem : Nat → Cell}

/-- Cells outside the slots keep what they had. -/
theorem saved_outside {cell : Nat}
    (h : ∀ p ∈ slots, cell ≠ (addr + p.2 * sizeofCap) / sizeofCell ∧
      cell ≠ (addr + p.2 * sizeofCap) / sizeofCell + 1) :
    saved regs addr slots mem cell = mem cell := by
  induction slots generalizing mem with
  | nil => rfl
  | cons q qs ih =>
    have hq := h q List.mem_cons_self
    show saved regs addr qs (putCap mem (addr + q.2 * sizeofCap) (regs q.1)) cell = mem cell
    rw [ih fun p hp => h p (List.mem_cons_of_mem q hp)]
    exact putCap_of_ne hq.1 hq.2

/-- A slot that nothing is saved in keeps its capability. -/
theorem getCap_saved_of_ne {k : Nat} (h : ∀ p ∈ slots, p.2 ≠ k) :
    getCap (saved regs addr slots mem) (addr + k * sizeofCap)
      = getCap mem (addr + k * sizeofCap) := by
  apply getCap_congr
  · apply saved_outside
    intro p hp
    have := h p hp
    simp only [sizeofCap, sizeofCell]
    omega
  · apply saved_outside
    intro p hp
    have := h p hp
    simp only [sizeofCap, sizeofCell]
    omega

/-- A saved register is read back from its slot. -/
theorem getCap_saved (hslots : (slots.map Prod.snd).Nodup) {p : Reg × Nat} (hp : p ∈ slots) :
    getCap (saved regs addr slots mem) (addr + p.2 * sizeofCap) = regs p.1 := by
  induction slots generalizing mem with
  | nil => cases hp
  | cons q qs ih =>
    show getCap (saved regs addr qs (putCap mem (addr + q.2 * sizeofCap) (regs q.1))) _ = _
    have hqs : q.2 ∉ qs.map Prod.snd := (List.nodup_cons.mp hslots).1
    cases List.mem_cons.mp hp with
    | inr hp' => exact ih (List.nodup_cons.mp hslots).2 hp'
    | inl hpq =>
      subst hpq
      rw [getCap_saved_of_ne fun r hr hrp => hqs (List.mem_map.mpr ⟨r, hr, hrp⟩)]
      exact getCap_putCap mem _ _

/-- The rule for a prologue. -/
theorem execAll_saves {s : Machine} {cb : Reg} (hpermitted : ∀ p ∈ slots,
      Access (s.reg cb) permStore (p.2 * sizeofCap) sizeofCap ∧
        StoresTag (s.reg cb) (s.reg p.1)) :
    s.execAll (saves cb slots)
      = some { s with mem := saved s.reg (s.reg cb).addr slots s.mem } := by
  induction slots generalizing s with
  | nil => rfl
  | cons q qs ih =>
    have hq := hpermitted q List.mem_cons_self
    have hexec : s.exec (.csc q.1 (q.2 * sizeofCap) cb)
        = some { s with
            mem := putCap s.mem ((s.reg cb).addr + q.2 * sizeofCap) (s.reg q.1) } := if_pos hq
    show s.execAll (.csc q.1 (q.2 * sizeofCap) cb :: saves cb qs) = _
    rw [Machine.execAll_cons hexec]
    exact ih fun p hp => hpermitted p (List.mem_cons_of_mem q hp)

end Saves

section Restores

variable {mem : Nat → Cell} {addr : Nat} {slots : List (Reg × Nat)} {regs : Reg → Word}

theorem restored_of_ne {r : Reg} (h : ∀ p ∈ slots, r ≠ p.1) :
    restored mem addr slots regs r = regs r := by
  induction slots generalizing regs with
  | nil => rfl
  | cons q qs ih =>
    show restored mem addr qs (Function.update regs q.1 _) r = regs r
    rw [ih fun p hp => h p (List.mem_cons_of_mem q hp)]
    exact Function.update_of_ne (h q List.mem_cons_self) _ _

theorem restored_of_mem (hregs : (slots.map Prod.fst).Nodup) {p : Reg × Nat} (hp : p ∈ slots) :
    restored mem addr slots regs p.1 = getCap mem (addr + p.2 * sizeofCap) := by
  induction slots generalizing regs with
  | nil => cases hp
  | cons q qs ih =>
    show restored mem addr qs (Function.update regs q.1 _) p.1 = _
    have hqs : q.1 ∉ qs.map Prod.fst := (List.nodup_cons.mp hregs).1
    cases List.mem_cons.mp hp with
    | inr hp' => exact ih (List.nodup_cons.mp hregs).2 hp'
    | inl hpq =>
      subst hpq
      rw [restored_of_ne fun r hr hrp => hqs (List.mem_map.mpr ⟨r, hr, hrp.symm⟩)]
      exact Function.update_self _ _ _

/-- The rule for an epilogue. The base register is none of those it restores. -/
theorem execAll_restores {s : Machine} {cb : Reg}
    (hregs : ∀ p ∈ slots, p.1 ≠ cb ∧ p.1 ≠ .cnull)
    (hpermitted : ∀ p ∈ slots, Access (s.reg cb) permLoad (p.2 * sizeofCap) sizeofCap)
    (hcaps : Meets (s.reg cb).perms permLoadCap) :
    s.execAll (restores cb slots)
      = some { s with regs := restored s.mem (s.reg cb).addr slots s.regs } := by
  induction slots generalizing s with
  | nil => rfl
  | cons q qs ih =>
    have hq := hregs q List.mem_cons_self
    have hexec : s.exec (.clc q.1 (q.2 * sizeofCap) cb)
        = some (s.setReg q.1 (getCap s.mem ((s.reg cb).addr + q.2 * sizeofCap))) := by
      show (if _ then _ else _) = _
      rw [if_pos (hpermitted q List.mem_cons_self), if_pos hcaps]
    have hbase (v : Word) : (s.setReg q.1 v).reg cb = s.reg cb := by
      rw [Machine.reg_setReg s v hq.2, if_neg hq.1.symm]
    show s.execAll (.clc q.1 (q.2 * sizeofCap) cb :: restores cb qs) = _
    rw [Machine.execAll_cons hexec, ih, hbase]
    · rw [Machine.setReg, if_neg hq.2]
      rfl
    · exact fun p hp => hregs p (List.mem_cons_of_mem q hp)
    · intro p hp
      rw [hbase]
      exact hpermitted p (List.mem_cons_of_mem q hp)
    · rw [hbase]
      exact hcaps

end Restores

/-! The same for floating-point registers. Register `k` is in slot `k` of eight bytes. -/

def fsaves (cb : Reg) (slots : List Nat) : List Instr :=
  slots.map fun k => .cfsd k (k * sizeofCell) cb

def frestores (cb : Reg) (slots : List Nat) : List Instr :=
  slots.map fun k => .cfld k (k * sizeofCell) cb

def fsaved (fregs : Nat → Bytes) (addr : Nat) (slots : List Nat) (mem : Nat → Cell) :
    Nat → Cell :=
  slots.foldl (fun mem k => Function.update mem ((addr + k * sizeofCell) / sizeofCell) (fregs k).1)
    mem

def frestored (mem : Nat → Cell) (addr : Nat) (slots : List Nat) (fregs : Nat → Bytes) :
    Nat → Bytes :=
  slots.foldl (fun fregs k => Function.update fregs k
    ⟨(mem ((addr + k * sizeofCell) / sizeofCell)).bytes, Cell.bytes_bytes _⟩) fregs

section Floats

variable {fregs : Nat → Bytes} {addr : Nat} {slots : List Nat} {mem : Nat → Cell}

theorem fsaved_outside {cell : Nat}
    (h : ∀ k ∈ slots, cell ≠ (addr + k * sizeofCell) / sizeofCell) :
    fsaved fregs addr slots mem cell = mem cell := by
  induction slots generalizing mem with
  | nil => rfl
  | cons j js ih =>
    show fsaved fregs addr js (Function.update mem _ _) cell = mem cell
    rw [ih fun k hk => h k (List.mem_cons_of_mem j hk)]
    exact Function.update_of_ne (h j List.mem_cons_self) _ _

theorem fsaved_of_mem (hslots : slots.Nodup) {k : Nat} (hk : k ∈ slots) :
    fsaved fregs addr slots mem ((addr + k * sizeofCell) / sizeofCell) = (fregs k).1 := by
  induction slots generalizing mem with
  | nil => cases hk
  | cons j js ih =>
    show fsaved fregs addr js (Function.update mem _ _) _ = _
    have hjs : j ∉ js := (List.nodup_cons.mp hslots).1
    cases List.mem_cons.mp hk with
    | inr hk' => exact ih (List.nodup_cons.mp hslots).2 hk'
    | inl hkj =>
      subst hkj
      rw [fsaved_outside, Function.update_self]
      intro i hi
      have : i ≠ k := fun hik => hjs (hik ▸ hi)
      simp only [sizeofCell]
      omega

theorem execAll_fsaves {s : Machine} {cb : Reg} (hpermitted : ∀ k ∈ slots,
      Access (s.reg cb) permStore (k * sizeofCell) sizeofCell) :
    s.execAll (fsaves cb slots)
      = some { s with mem := fsaved s.fregs (s.reg cb).addr slots s.mem } := by
  induction slots generalizing s with
  | nil => rfl
  | cons j js ih =>
    have hexec : s.exec (.cfsd j (j * sizeofCell) cb)
        = some { s with
            mem := Function.update s.mem (((s.reg cb).addr + j * sizeofCell) / sizeofCell)
              (s.fregs j).1 } := if_pos (hpermitted j List.mem_cons_self)
    show s.execAll (.cfsd j (j * sizeofCell) cb :: fsaves cb js) = _
    rw [Machine.execAll_cons hexec]
    exact ih fun k hk => hpermitted k (List.mem_cons_of_mem j hk)

theorem frestored_of_not_mem {k : Nat} (h : k ∉ slots) :
    frestored mem addr slots fregs k = fregs k := by
  induction slots generalizing fregs with
  | nil => rfl
  | cons j js ih =>
    show frestored mem addr js (Function.update fregs j _) k = fregs k
    rw [ih (List.not_mem_of_not_mem_cons h)]
    exact Function.update_of_ne (List.ne_of_not_mem_cons h) _ _

theorem frestored_of_mem (hslots : slots.Nodup) {k : Nat} (hk : k ∈ slots) :
    (frestored mem addr slots fregs k).1 = (mem ((addr + k * sizeofCell) / sizeofCell)).bytes := by
  induction slots generalizing fregs with
  | nil => cases hk
  | cons j js ih =>
    show (frestored mem addr js (Function.update fregs j _) k).1 = _
    have hjs : j ∉ js := (List.nodup_cons.mp hslots).1
    cases List.mem_cons.mp hk with
    | inr hk' => exact ih (List.nodup_cons.mp hslots).2 hk'
    | inl hkj =>
      subst hkj
      rw [frestored_of_not_mem hjs, Function.update_self]

theorem execAll_frestores {s : Machine} {cb : Reg} (hpermitted : ∀ k ∈ slots,
      Access (s.reg cb) permLoad (k * sizeofCell) sizeofCell) :
    s.execAll (frestores cb slots)
      = some { s with fregs := frestored s.mem (s.reg cb).addr slots s.fregs } := by
  induction slots generalizing s with
  | nil => rfl
  | cons j js ih =>
    have hexec : s.exec (.cfld j (j * sizeofCell) cb)
        = some { s with
            fregs := Function.update s.fregs j
              ⟨(s.mem (((s.reg cb).addr + j * sizeofCell) / sizeofCell)).bytes,
                Cell.bytes_bytes _⟩ } := if_pos (hpermitted j List.mem_cons_self)
    show s.execAll (.cfld j (j * sizeofCell) cb :: frestores cb js) = _
    rw [Machine.execAll_cons hexec]
    exact ih fun k hk => hpermitted k (List.mem_cons_of_mem j hk)

end Floats

/-! ### Stacks -/

/-- The capability `n` bytes further down. -/
def lower (c : Word) (n : Nat) : Word := { c with addr := c.addr - n }

/-- A stack with `size` bytes of room, as it is at the call of a function. -/
structure Stack (size : Nat) (c : Word) : Prop where
  tagged : c.tag = true
  notSealed : c.otype = none
  load : Meets c.perms permLoad
  store : Meets c.perms permStore
  loadCap : Meets c.perms permLoadCap
  storeCap : Meets c.perms permStoreCap
  storeLocalCap : Meets c.perms permStoreLocalCap
  invoke : Meets c.perms permInvoke
  notExecute : ¬Meets c.perms permExecute
  aligned : c.addr % sizeofCap = 0
  room : c.base + size ≤ c.addr
  top : c.addr ≤ c.base + c.length
  addrSpace : c.addr < 2 ^ 64

section Stack

variable {size n : Nat} {c : Word}

theorem incOffset_lower (hstack : Stack size c) (hn : n ≤ size) :
    incOffset c (-(n : Int)) = lower c n := by
  have hroom := hstack.room
  have htop := hstack.top
  have hspace := hstack.addrSpace
  have haddr : ((c.addr : Int) + -(n : Int)) % 2 ^ 64 = ((c.addr - n : Nat) : Int) := by omega
  have hbounds : (c.base : Int) ≤ ((c.addr - n : Nat) : Int) ∧
      ((c.addr - n : Nat) : Int) ≤ c.base + c.length := by omega
  simp only [incOffset, haddr, lower, Int.toNat_natCast, hstack.tagged, hstack.notSealed,
    Option.isNone_none, Bool.true_and, decide_eq_true hbounds]

theorem incOffset_raise {m : Nat} (hstack : Stack size c) (hn : n ≤ size) (hm : m ≤ n) :
    incOffset (lower c n) m = lower c (n - m) := by
  have hroom := hstack.room
  have htop := hstack.top
  have hspace := hstack.addrSpace
  have haddr : (((c.addr - n : Nat) : Int) + (m : Int)) % 2 ^ 64
      = ((c.addr - (n - m) : Nat) : Int) := by omega
  have hbounds : (c.base : Int) ≤ ((c.addr - (n - m) : Nat) : Int) ∧
      ((c.addr - (n - m) : Nat) : Int) ≤ c.base + c.length := by omega
  simp only [incOffset, haddr, lower, Int.toNat_natCast, hstack.tagged, hstack.notSealed,
    Option.isNone_none, Bool.true_and, decide_eq_true hbounds]

@[simp] theorem lower_zero (c : Word) : lower c 0 = c := rfl

theorem lower_lower (c : Word) (n m : Nat) : lower (lower c n) m = lower c (n + m) := by
  simp only [lower, Nat.sub_sub]

theorem Stack.lowered (hstack : Stack size c) (hn : n ≤ size) (haligned : n % sizeofCap = 0) :
    Stack (size - n) (lower c n) where
  tagged := hstack.tagged
  notSealed := hstack.notSealed
  load := hstack.load
  store := hstack.store
  loadCap := hstack.loadCap
  storeCap := hstack.storeCap
  storeLocalCap := hstack.storeLocalCap
  invoke := hstack.invoke
  notExecute := hstack.notExecute
  aligned := by
    have := hstack.aligned
    simp only [sizeofCap] at *
    show (c.addr - n) % 16 = 0
    omega
  room := by
    have := hstack.room
    show c.base + (size - n) ≤ c.addr - n
    omega
  top := Nat.le_trans (Nat.sub_le _ _) hstack.top
  addrSpace := Nat.lt_of_le_of_lt (Nat.sub_le _ _) hstack.addrSpace

/-- What lies within the room is accessible. -/
theorem Stack.access {perm : Perms} {offset k : Nat} (hstack : Stack size c) (hn : n ≤ size)
    (haligned : n % sizeofCap = 0) (hperm : Meets c.perms perm) (hin : offset + k ≤ n)
    (hk : k ∣ sizeofCap) (hoffset : k ∣ offset) :
    Access (lower c n) perm offset k := by
  have hroom := hstack.room
  have htop := hstack.top
  refine ⟨hstack.tagged, hstack.notSealed, hperm, ?_, ?_, ?_⟩
  · show c.base ≤ c.addr - n + offset
    omega
  · show c.addr - n + offset + k ≤ c.base + c.length
    omega
  · have haddr : sizeofCap ∣ c.addr - n :=
      Nat.dvd_sub (Nat.dvd_of_mod_eq_zero hstack.aligned) (Nat.dvd_of_mod_eq_zero haligned)
    exact Nat.mod_eq_zero_of_dvd (Nat.dvd_add (Nat.dvd_trans hk haddr) hoffset)

theorem Stack.loadCap_lower (hstack : Stack size c) : Meets (lower c n).perms permLoadCap :=
  hstack.loadCap

theorem Stack.seals {ct : Word} (hstack : Stack size c) (hct : CanSeal ct) :
    Seals (lower c n) ct :=
  ⟨hstack.tagged, hstack.notSealed, hct⟩

/-- A stack and code that are sealed with one object type are a pair. -/
theorem Stack.pairs {code : Word} {ot : Nat} (hstack : Stack size c) (htag : code.tag = true)
    (hinvoke : Meets code.perms permInvoke) (hot : ot ≠ otypeSentry) :
    Pairs { code with otype := some ot } { lower c n with otype := some ot } :=
  ⟨htag, hstack.tagged, rfl, rfl, fun h => hot (Option.some.inj h), hinvoke, hstack.invoke,
    hstack.notExecute⟩

theorem Stack.unsealed_lower (hstack : Stack size c) (ot : Option Nat) :
    ({ lower c n with otype := ot } : Word).unsealed = lower c n := by
  show ({ lower c n with otype := none } : Word) = lower c n
  rw [← hstack.notSealed]
  rfl

theorem Stack.storesTag (hstack : Stack size c) (v : Word) : StoresTag (lower c n) v :=
  fun _ => ⟨hstack.storeCap, .inr hstack.storeLocalCap⟩

end Stack

end Cheri

end Comsg.Lib
