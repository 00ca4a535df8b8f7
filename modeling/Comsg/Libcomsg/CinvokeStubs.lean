import Comsg.Lib.CheriMachine

/-!
# `Comsg.Libcomsg.CinvokeStubs`: the domain crossings of the coport functions

The hand-written code that calls a coport function through a sealed pair, for RISC-V:
`coport_cinvoke_stub.S`, `copipe_cinvoke_stubs.S` and `cochannel_cinvoke_stubs.S`.

* `saveFrame`, `restoreFrame`: what the six functions begin and end with. `fp` is
  `__riscv_float_abi_double`, and `ddc` is `false` where the two instructions for it are commented
  out.
* `CinvokeFunc.enter`: from the entry up to the `cinvoke`. `label` is the address of the function's
  return label.
* `ccallReturn`: `CCALL_RETURN` (`coport_cinvoke_macros.h:37`), at the end of the functions that are
  called.
* `comeBack`: from there to the end of the function whose return label the program counter is at.

The integer registers are the capability registers of the same number. `cgetoffset t3, csp` leaves
a value that nothing reads.
-/

set_option autoImplicit false

namespace Comsg.Libcomsg

open Comsg.Lib Comsg.Lib.Cheri

/-- `CAP_FRAME_SIZE`. -/
def capFrameSize : Nat := 15 * sizeofCap

/-- `FP_FRAME_SIZE`. -/
def fpFrameSize (fp : Bool) : Nat := if fp then 12 * sizeofCell else 0

/-- `CINVOKE_FRAME_SIZE`. -/
def cinvokeFrameSize (fp : Bool) : Nat := fpFrameSize fp + capFrameSize

/-- The capability registers of the frame, with their slots. -/
def frameRegs : List (Reg × Nat) :=
  [(.cs0, 0), (.cs1, 1), (.cs2, 2), (.cs3, 3), (.cs4, 4), (.cs5, 5), (.cs6, 6), (.cs7, 7),
   (.cs8, 8), (.cs9, 9), (.cs10, 10), (.cs11, 11), (.cra, 12), (.ctp, 13)]

/-- The slot of `ddc`. -/
def ddcSlot : Nat := 14

/-- `fs0` to `fs11`. -/
def frameFloats : List Nat := List.range 12

def saveFrame (fp ddc : Bool) : List Instr :=
  [.cgetoffset .ct3 .csp, .cincoffset .csp .csp (-capFrameSize)] ++
    saves .csp frameRegs ++
    (if ddc then [.cspecialrDdc .ct1, .csc .ct1 (ddcSlot * sizeofCap) .csp] else []) ++
    if fp then .cincoffset .csp .csp (-fpFrameSize fp) :: fsaves .csp frameFloats else []

def restoreFrame (fp ddc : Bool) : List Instr :=
  .cmove .csp .c31 ::
    (if fp then
      frestores .csp frameFloats ++ [.cincoffset .csp .csp (fpFrameSize fp)]
    else []) ++
    restores .csp frameRegs ++
    .clc .ct1 (ddcSlot * sizeofCap) .csp ::
    (if ddc then [.cspecialwDdc .ct1] else []) ++
    [.cincoffset .csp .csp capFrameSize, .cjr .cra]

/-- The capabilities to return with, in `cs6` and `cs5`. `ct` holds `ret_sealcap`. -/
def sealReturn (label : Nat) (ct : Reg) : List Instr :=
  [.cllc .cra label,
   .cseal .cra .cra ct,
   .cseal .cs5 .csp ct,
   .cmove ct .cnull,
   .cmove .ct5 .cnull,
   .cmove .cs6 .cra]

/-- The arguments of a send or a receive: `codecap`, `coport`, `buf`, `ret_sealcap`, `len`. -/
def passArguments (label : Nat) : List Instr :=
  [.cmove .ct1 .ca0, .cmove .ct2 .ca1, .cmove .ca1 .ca2, .move .ca2 .ca4] ++
    sealReturn label .ca3 ++ [.cinvoke .ct1 .ct2]

/-- The arguments of `copipe_ready_cinvoke`: `codecap`, `coport`, `ret_sealcap`. -/
def passArgumentsReady (label : Nat) : List Instr :=
  [.cmove .ct1 .ca0, .cmove .ca0 .ca1] ++ sealReturn label .ca2 ++ [.cinvoke .ct1 .ca0]

inductive CinvokeFunc
  | coportCinvoke
  | copipeCosendCinvoke
  | copipeCorecvCinvoke
  | copipeReadyCinvoke
  | cochannelCosendCinvoke
  | cochannelCorecvCinvoke
  deriving DecidableEq, Repr

namespace CinvokeFunc

/-- The function saves and restores `ddc`. -/
def savesDdc : CinvokeFunc → Bool
  | cochannelCosendCinvoke => false
  | cochannelCorecvCinvoke => false
  | _                      => true

/-- Up to the `cinvoke`. -/
def enter (fp : Bool) (label : Nat) : CinvokeFunc → List Instr
  | copipeReadyCinvoke => saveFrame fp true ++ passArgumentsReady label
  | func               => saveFrame fp func.savesDdc ++ passArguments label

/-- From the return label on. -/
def leave (fp : Bool) (func : CinvokeFunc) : List Instr := restoreFrame fp func.savesDdc

/-- The register of the argument `ret_sealcap`. -/
def retSealcap : CinvokeFunc → Reg
  | copipeReadyCinvoke => .ca2
  | _                  => .ca3

def all : List CinvokeFunc :=
  [coportCinvoke, copipeCosendCinvoke, copipeCorecvCinvoke, copipeReadyCinvoke,
   cochannelCosendCinvoke, cochannelCorecvCinvoke]

end CinvokeFunc

/-- `CCALL_RETURN`, with the result in the register `result`. -/
def ccallReturn (result : Reg) : List Instr := [.move .ca0 result, .cinvoke .cs6 .cs5]

/-- The end of a called function, and what follows where the program counter then is. -/
def comeBack (fp : Bool) (labels : CinvokeFunc → Nat) (result : Reg) (t : Machine) :
    Option Machine := do
  let t ← t.execAll (ccallReturn result)
  let func ← CinvokeFunc.all.find? fun func => labels func == t.pcc.addr
  t.execAll (func.leave fp)

end Comsg.Libcomsg
