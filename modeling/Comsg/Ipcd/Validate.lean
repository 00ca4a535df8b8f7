import Comsg.Ipcd.CopollDeliver
import Comsg.Lib.Bounded

/-!
# `Comsg.Ipcd.Validate`: the validators of ipcd

A client passes a coport as a capability. `valid_coport` unseals it, reads the type of the coport
through it, and looks whether the address is in the table of that type.

* `unsealCoport`, `coportGettype`, `validCoport`, `validCocarrier`: `ipcd_cap.c`.
* `getCoportTable`, `inCoportTable`: `coport_table.c`.
* The validators: `cosend.c`, `corecv.c`, `coclose.c`, `copoll.c`, `comsg_free.c`.

`none` stands for a load that faults, also one through `NULL`, and for `err`: ipcd is gone then.
Memory is what `coport_type_t` it holds at each address. Only ipcd seals with its three object
types, and it does so in `coport_open` only. So a tagged capability with one of them is what
`coport_open` has returned (`ClientCap`). Of the other capabilities nothing is assumed.
-/

set_option autoImplicit false

namespace Comsg.Ipcd

open Comsg.Lib

/-- The object types of capabilities: ipcd's, one for each type of coport, and those of others. -/
inductive Otype
  | coport (type : CoportType)
  | foreign
  deriving DecidableEq, Repr

/-- A capability that is presented as a coport. -/
abbrev PortCap := BoundedCap Otype

/-- Where `type` is in a `coport_t`: behind the capability `info`. -/
def offsetType : Nat := chericapSize
def sizeofType : Nat := 4

/-- `sizeof(pollcoport_t)` and `sizeof(comsg_attachment_t)`. -/
def sizeofPollcoport : Nat := 2 * chericapSize
def sizeofAttachment : Nat := 2 * chericapSize

/-- `COPORT_PERMS`, as far as memory grants them. -/
def coportPerms : Perms := permLoad ||| permLoadCap ||| permSw2 ||| permSw3

/-- The tables of coports: where they are, how long their capabilities are, how many entries have
been allocated, and memory. An entry is within its table, and `coport_open` has stored its type. -/
structure PortTables where
  base : CoportType → Nat
  length : CoportType → Nat
  nextCoport : CoportType → Nat
  mem : Nat → Int
  fits : ∀ type, nextCoport type * sizeofCoportTblEntry ≤ length type
  typed : ∀ type i, i < nextCoport type →
    mem (base type + i * sizeofCoportTblEntry + offsetType) = type.toInt

/-- The address of entry `i` of a table. -/
def PortTables.entry (s : PortTables) (type : CoportType) (i : Nat) : Nat :=
  s.base type + i * sizeofCoportTblEntry

/-- What `coport_open` returns for entry `i`. -/
def PortTables.handle (s : PortTables) (type : CoportType) (i : Nat) : PortCap where
  tag := true
  otype := some (.coport type)
  base := s.entry type i
  length := sizeofCoport
  addr := s.entry type i
  perms := coportPerms

/-- A capability that a client can have. -/
structure ClientCap (s : PortTables) where
  cap : PortCap
  unforged : ∀ type, cap.tag = true → cap.otype = some (.coport type) →
    ∃ i, i < s.nextCoport type ∧ cap = s.handle type i

/-- The capability after its tag was cleared. -/
def ClientCap.untagged {s : PortTables} (c : ClientCap s) : ClientCap s where
  cap := c.cap.untagged
  unforged := by
    intro type htag
    cases htag

namespace PortTables

/-! ### Coports -/

/-- `unseal_coport`, which exits for other object types. -/
def unsealCoport (c : PortCap) : Option PortCap :=
  match c.otype with
  | none             => some c
  | some (.coport _) => some c.unsealed
  | some .foreign    => none

/-- `coport_gettype`. -/
def coportGettype (s : PortTables) (c : PortCap) : Option Int := do
  let c ← unsealCoport c
  if c.Loads offsetType sizeofType then some (s.mem (c.addr + offsetType)) else none

/-- `get_coport_table`: `NULL`, or the table of the type. -/
def getCoportTable (type : Int) : Option CoportType :=
  if type = CoportType.cocarrier.toInt then some .cocarrier
  else if type = CoportType.copipe.toInt then some .copipe
  else if type = CoportType.cochannel.toInt then some .cochannel
  else none

/-- The address is within the capability to the table. -/
def InTable (s : PortTables) (addr : Nat) (type : CoportType) : Prop :=
  s.base type ≤ addr ∧ addr < s.base type + s.length type

instance (s : PortTables) (addr : Nat) (type : CoportType) : Decidable (s.InTable addr type) :=
  inferInstanceAs (Decidable (_ ∧ _))

/-- `in_coport_table`. -/
def inCoportTable (s : PortTables) (c : PortCap) (type : Int) : Option Bool := do
  let table ← getCoportTable type
  some (s.InTable c.addr table)

/-- `valid_coport`. -/
def validCoport (s : PortTables) (c : PortCap) : Option Bool :=
  if c.tag = false then some false
  else if c.length < sizeofCoport then some false
  else do s.inCoportTable c (← s.coportGettype c)

/-- `valid_cocarrier`. -/
def validCocarrier (s : PortTables) (c : PortCap) : Option Bool := do
  if (← s.validCoport c) = false then some false
  else some (c.otype = some (.coport .cocarrier))

end PortTables

/-! ### The arguments -/

/-- What `cosend` is called with, as far as its validator reads it. -/
structure CosendArgs (s : PortTables) where
  length : Nat
  message : PortCap
  cocarrier : ClientCap s
  oobLen : Nat
  attachments : PortCap

/-- The array of a `copoll`: the capability to it, and the capability in each entry. -/
structure PollArray (s : PortTables) where
  cap : PortCap
  coport : Nat → ClientCap s

/-- The arguments of the validators. -/
inductive PortRequest (s : PortTables)
  | cosend (args : CosendArgs s)
  | corecv (cocarrier : ClientCap s)
  | coclose (port : ClientCap s)
  | copoll (ncoports : Nat) (coports : PollArray s)
  | comsgFree (cocarrier : ClientCap s) (message : PortCap)

namespace PortTables

variable {s : PortTables}

/-- `validate_cosend_args`. The product of the last test is a `size_t`. -/
def validateCosendArgs (s : PortTables) (args : CosendArgs s) : Option Bool := do
  if cocarrierMaxMsgLen < args.length then some false
  else if args.message.tag = false then some false
  else if cocarrierMaxMsgLen < args.message.length then some false
  else if (← s.validCocarrier args.cocarrier.cap) = false then some false
  else if args.oobLen ≠ 0 then
    if args.attachments.tag = false then some false
    else some (args.oobLen * sizeofAttachment % 2 ^ 64 ≤ args.attachments.length)
  else some true

/-- The load of `coports[i].coport`. Without `CHERI_PERM_LOAD_CAP` it has no tag. -/
def readCoport (coports : PollArray s) (i : Nat) : Option (ClientCap s) :=
  if coports.cap.Loads (i * sizeofPollcoport) chericapSize then
    if Meets coports.cap.perms permLoadCap then some (coports.coport i)
    else some (coports.coport i).untagged
  else none

/-- The loop of `validate_copoll_args`, from entry `i` on. -/
def copollLoop (coports : PollArray s) (i : Nat) : Nat → Option Bool
  | 0     => some true
  | n + 1 => do
    if (← s.validCocarrier (← readCoport coports i).cap) = false then some false
    else copollLoop coports (i + 1) n

/-- `validate_copoll_args`. -/
def validateCopollArgs (ncoports : Nat) (coports : PollArray s) : Option Bool :=
  copollLoop coports 0 ncoports

/-- `validate_comsg_free_args`. -/
def validateComsgFreeArgs (s : PortTables) (port message : PortCap) : Option Bool := do
  if (← s.validCoport port) = false then some false
  else some message.tag

/-- The validator of each request. Those of `corecv` and `coclose` call one function. -/
def validate : PortRequest s → Option Bool
  | .cosend args              => s.validateCosendArgs args
  | .corecv cocarrier         => s.validCocarrier cocarrier.cap
  | .coclose port             => s.validCoport port.cap
  | .copoll ncoports coports  => validateCopollArgs ncoports coports
  | .comsgFree port message   => s.validateComsgFreeArgs port.cap message

end PortTables

end Comsg.Ipcd
