import Comsg.Ipcd.Validate
import Comsg.Lib.Memcpy

/-!
# `Comsg.Ipcd.Attachments`: the attachments of a `cosend`

`handle_attachments` (`cosend.c:76-126`) copies the attachments of a message into a buffer of ipcd,
and clears there what fails the check of its type. `cocarrier_send` calls it with what
`validate_cosend_args` has accepted.

Memory of the sender is what it holds from the address of the capability on. The copy goes through
that capability: without `CHERI_PERM_LOAD_CAP` the copied items have no tags.

`calloc` is not part of the repository. It returns `NULL` when the size of the buffer is not a
`size_t`, and when there is no memory (`available`). As in `Comsg.Ipcd.Validate`, `none` stands for
an access that faults and for `err`.
-/

set_option autoImplicit false

namespace Comsg.Ipcd

open Comsg.Lib

/-- The values of `coport_attachment_type_t`. -/
def CoportAttachmentType.toInt : CoportAttachmentType → Int
  | .attachmentInvalid     => 0
  | .attachmentReservation => 1
  | .attachmentCoport      => 2
  | .attachmentCoevent     => 3

/-- `sizeof(coevent_t)`. -/
def sizeofCoevent : Nat := 6 * chericapSize

/-- The capability of zeros. Its bounds are all of memory. -/
def ClientCap.null (s : PortTables) : ClientCap s where
  cap := ⟨false, none, 0, 2 ^ 64 - 1, 0, 0⟩
  unforged := by
    intro type htag
    cases htag

/-- `comsg_attachment_t`. A sender can write any `int` as the type. -/
structure Attachment (s : PortTables) where
  item : ClientCap s
  type : Int

/-- What a sender passes as attachments: a capability, and entry `i` behind its address. -/
structure AttachmentArray (s : PortTables) where
  cap : PortCap
  entry : Nat → Attachment s

section
variable {s : PortTables}

/-- Entry `i` as it is copied through the capability. -/
def AttachmentArray.read (attachments : AttachmentArray s) (i : Nat) : Attachment s :=
  if Meets attachments.cap.perms permLoadCap then attachments.entry i
  else { attachments.entry i with item := (attachments.entry i).item.untagged }

/-- What `clear_attachment` leaves, and also an entry fresh from `calloc`. -/
def Attachment.cleared (s : PortTables) : Attachment s :=
  ⟨.null s, CoportAttachmentType.attachmentInvalid.toInt⟩

/-- `calloc(len, sizeof(comsg_attachment_t))`. -/
def callocAttachments (s : PortTables) (available : Nat → Bool) (len : Nat) :
    Option (List (Attachment s)) :=
  if len * sizeofAttachment < 2 ^ 64 ∧ available (len * sizeofAttachment) = true then
    some (List.replicate len (.cleared s))
  else none

/-- The `memcpy` of `size` bytes into the buffer, which may be `NULL`. -/
def copyAttachments (buf : Option (List (Attachment s))) (attachments : AttachmentArray s)
    (size : Nat) : Option (Option (List (Attachment s))) :=
  -- Nothing is accessed when there are no bytes to copy.
  if size = 0 then some buf
  else if attachments.cap.Loads 0 size then do
    let entries ← buf
    let n := size / sizeofAttachment
    let copied ← memcpy entries 0 ((List.range n).map attachments.read) 0 n
    some (some copied)
  else none

/-- The `switch` in the loop: the entry afterwards. -/
def checkAttachment (attachment : Attachment s) : Option (Attachment s) :=
  if attachment.type = CoportAttachmentType.attachmentCoport.toInt then do
    if (← s.validCocarrier attachment.item.cap) = false then some (.cleared s)
    else some attachment
  else if attachment.type = CoportAttachmentType.attachmentReservation.toInt then some attachment
  else if attachment.type = CoportAttachmentType.attachmentCoevent.toInt then
    if attachment.item.cap.tag = false then some (.cleared s)
    else if attachment.item.cap.length < sizeofCoevent then some (.cleared s)
    else some attachment
  else some (.cleared s)

/-- The loop, with `n` entries from `i` on still to do. -/
def attachmentLoop (buf : Option (List (Attachment s))) (i : Nat) :
    Nat → Option (Option (List (Attachment s)))
  | 0     => some buf
  | n + 1 => do
    let entries ← buf
    let attachment ← checkAttachment (← entries[i]?)
    attachmentLoop (some (entries.set i attachment)) (i + 1) n

/-- `handle_attachments`: `NULL`, or the buffer. -/
def handleAttachments (available : Nat → Bool) (attachments : AttachmentArray s) (len : Nat) :
    Option (Option (List (Attachment s))) :=
  if len = 0 then some none
  else do
    let buf := callocAttachments s available len
    let buf ← copyAttachments buf attachments (len * sizeofAttachment % 2 ^ 64)
    attachmentLoop buf 0 len

end

end Comsg.Ipcd
