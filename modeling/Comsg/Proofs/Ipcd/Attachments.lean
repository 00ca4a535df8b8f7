import Comsg.Ipcd.Attachments
import Comsg.Proofs.Ipcd.Validate

/-!
# `Comsg.Proofs.Ipcd.Attachments`: what `handle_attachments` returns

`validate_cosend_args` compares the length of the capability with a product that wraps, does not
look at the address, the seal and the permissions, and knows nothing of the items. So
`handle_attachments` can fault on what it has accepted. `attachments_handled_iff` says for which
arguments it does not, and that it then returns every attachment of the sender, or a cleared one in
its place.
-/

set_option autoImplicit false

namespace Comsg.Proofs.Ipcd

open Comsg.Lib
open Comsg.Ipcd
open Comsg.Ipcd.PortTables

section
variable {s : PortTables}

/-- The attachment passes the check of its type. -/
def Passes (a : Attachment s) : Prop :=
  (a.type = CoportAttachmentType.attachmentCoport.toInt ∧
    ∃ i, i < s.nextCoport .cocarrier ∧ a.item.cap = s.handle .cocarrier i) ∨
  a.type = CoportAttachmentType.attachmentReservation.toInt ∨
  (a.type = CoportAttachmentType.attachmentCoevent.toInt ∧ a.item.cap.tag = true ∧
    sizeofCoevent ≤ a.item.cap.length)

/-- What is to be sent in the place of an attachment. -/
def Sanitises (a b : Attachment s) : Prop := (Passes a ∧ b = a) ∨ (¬Passes a ∧ b = .cleared s)

/-- The item is presented as a coport, and ipcd does not survive the check. -/
def Poisons (a : Attachment s) : Prop :=
  a.type = CoportAttachmentType.attachmentCoport.toInt ∧ TakesDown s a.item.cap

/-- `handle_attachments` returns with one entry for each attachment, in order. `NULL` has none. -/
def HandlesAll (available : Nat → Bool) (attachments : AttachmentArray s) (len : Nat) : Prop :=
  ∃ buf, handleAttachments available attachments len = some buf ∧ (buf.getD []).length = len ∧
    ∀ i, i < len → ∃ b, (buf.getD [])[i]? = some b ∧ Sanitises (attachments.read i) b

/-- The attachments can be copied: their size is a `size_t`, there is memory for them, and the
capability can be read through for as many bytes from its address on. -/
def Copyable (available : Nat → Bool) (cap : PortCap) (len : Nat) : Prop :=
  len * sizeofAttachment < 2 ^ 64 ∧ available (len * sizeofAttachment) = true ∧
    cap.otype = none ∧ cap.Spans 0 (len * sizeofAttachment)

/-! ### The check of one entry -/

/-- What the `switch` makes of an attachment. -/
inductive CheckCase (a : Attachment s) : Prop
  | faulted (h : Poisons a) (hcheck : checkAttachment a = none)
  | checked (h : ¬Poisons a) (b : Attachment s) (hb : Sanitises a b)
      (hcheck : checkAttachment a = some b)

theorem checkCase_coport {a : Attachment s}
    (htype : a.type = CoportAttachmentType.attachmentCoport.toInt) : CheckCase a := by
  have hcheck : checkAttachment a = (s.validCocarrier a.item.cap).bind fun valid =>
      if valid = false then some (.cleared s) else some a := if_pos htype
  -- `valid_cocarrier` accepts handles of cocarriers only, where it returns.
  cases carrierCase a.item with
  | takesDown h hvalid => exact .faulted ⟨htype, h⟩ (by simp [hcheck, hvalid])
  | refused hdown hno hvalid =>
    refine .checked (fun h => hdown h.2) (.cleared s) (.inr ⟨?_, rfl⟩) (by simp [hcheck, hvalid])
    rintro (⟨-, i, -, heq⟩ | htype' | ⟨htype', -⟩)
    · exact hno i heq
    · simp [htype, CoportAttachmentType.toInt] at htype'
    · simp [htype, CoportAttachmentType.toInt] at htype'
  | handle i hi h hdown hvalid =>
    refine .checked (fun h => hdown h.2) a (.inl ⟨.inl ⟨htype, i, hi, h⟩, rfl⟩) ?_
    simp [hcheck, hvalid]

theorem checkCase_coevent {a : Attachment s}
    (htype : a.type = CoportAttachmentType.attachmentCoevent.toInt) : CheckCase a := by
  have hcheck : checkAttachment a =
      if a.item.cap.tag = false then some (.cleared s)
      else if a.item.cap.length < sizeofCoevent then some (.cleared s)
      else some a := by
    simp [checkAttachment, htype, CoportAttachmentType.toInt]
  have hpasses : Passes a ↔ a.item.cap.tag = true ∧ sizeofCoevent ≤ a.item.cap.length := by
    simp [Passes, htype, CoportAttachmentType.toInt]
  have hpoison : ¬Poisons a := by simp [Poisons, htype, CoportAttachmentType.toInt]
  split at hcheck
  · rename_i htag
    refine .checked hpoison _ (.inr ⟨fun h => ?_, rfl⟩) hcheck
    simp [(hpasses.mp h).1] at htag
  · rename_i htag
    split at hcheck
    · rename_i hlen
      exact .checked hpoison _ (.inr ⟨fun h => absurd (hpasses.mp h).2 (by omega), rfl⟩) hcheck
    · rename_i hlen
      exact .checked hpoison _ (.inl ⟨hpasses.mpr ⟨by simpa using htag, by omega⟩, rfl⟩) hcheck

theorem checkCase (a : Attachment s) : CheckCase a := by
  by_cases hcoport : a.type = CoportAttachmentType.attachmentCoport.toInt
  · exact checkCase_coport hcoport
  · have hpoison : ¬Poisons a := fun h => hcoport h.1
    by_cases hreservation : a.type = CoportAttachmentType.attachmentReservation.toInt
    · refine .checked hpoison a (.inl ⟨.inr (.inl hreservation), rfl⟩) ?_
      simp only [checkAttachment, if_neg hcoport, if_pos hreservation]
    · by_cases hcoevent : a.type = CoportAttachmentType.attachmentCoevent.toInt
      · exact checkCase_coevent hcoevent
      · have hpasses : ¬Passes a := by simp [Passes, hcoport, hreservation, hcoevent]
        refine .checked hpoison _ (.inr ⟨hpasses, rfl⟩) ?_
        simp [checkAttachment, hcoport, hreservation, hcoevent]

/-! ### The loop -/

/-- What the loop makes of `n` entries from `i` on. -/
inductive AttachmentsCase (entries : List (Attachment s)) (i n : Nat) : Prop
  | faulted (j : Nat) (a : Attachment s) (hj : i ≤ j ∧ j < i + n) (ha : entries[j]? = some a)
      (h : Poisons a) (hloop : attachmentLoop (some entries) i n = none)
  | checked (h : ∀ j a, i ≤ j → j < i + n → entries[j]? = some a → ¬Poisons a)
      (out : List (Attachment s)) (hlen : out.length = entries.length)
      (hsame : ∀ j, j < i → out[j]? = entries[j]?)
      (hout : ∀ j a, i ≤ j → j < i + n → entries[j]? = some a →
        ∃ b, out[j]? = some b ∧ Sanitises a b)
      (hloop : attachmentLoop (some entries) i n = some (some out))

theorem attachmentsCase (entries : List (Attachment s)) (i n : Nat)
    (h : i + n ≤ entries.length) : AttachmentsCase entries i n := by
  induction n generalizing i entries with
  | zero =>
    exact .checked (fun j a hle hlt => by omega) entries rfl (fun j hj => rfl)
      (fun j a hle hlt => by omega) rfl
  | succ n ih =>
    obtain ⟨a, ha⟩ : ∃ a, entries[i]? = some a := ⟨_, List.getElem?_eq_getElem (by omega)⟩
    cases checkCase a with
    | faulted hpoison hcheck =>
      exact .faulted i a (by omega) ha hpoison (by simp [attachmentLoop, ha, hcheck])
    | checked hpoison b hb hcheck =>
      have hstep : attachmentLoop (some entries) i (n + 1) =
          attachmentLoop (some (entries.set i b)) (i + 1) n := by
        simp [attachmentLoop, ha, hcheck]
      -- The other entries are not touched by the store to entry `i`.
      have hother {j : Nat} (hj : j ≠ i) : (entries.set i b)[j]? = entries[j]? :=
        List.getElem?_set_ne (Ne.symm hj)
      cases ih (entries.set i b) (i + 1) (by simp; omega) with
      | faulted j c hj hc hpoison' hloop =>
        have hne : j ≠ i := by omega
        exact .faulted j c (by omega) ((hother hne).symm.trans hc) hpoison' (hstep.trans hloop)
      | checked hrest out hlen hsame hout hloop =>
        refine .checked ?_ out (by simpa using hlen) ?_ ?_ (hstep.trans hloop)
        -- Entry `i` was checked now, and the entries behind it by the rest of the loop.
        · intro j c hle hlt hc
          by_cases hj : j = i
          · subst hj
            obtain rfl : a = c := Option.some.inj (ha.symm.trans hc)
            exact hpoison
          · exact hrest j c (by omega) (by omega) ((hother hj).trans hc)
        · intro j hj
          rw [hsame j (by omega), hother (by omega)]
        · intro j c hle hlt hc
          by_cases hj : j = i
          · subst hj
            obtain rfl : a = c := Option.some.inj (ha.symm.trans hc)
            refine ⟨b, ?_, hb⟩
            rw [hsame j (by omega), List.getElem?_set_self (by omega)]
          · exact hout j c (by omega) (by omega) ((hother hj).trans hc)

theorem attachmentLoop_null {i n : Nat} (h : n ≠ 0) :
    attachmentLoop (none : Option (List (Attachment s))) i n = none := by
  cases n with
  | zero => exact absurd rfl h
  | succ n => rfl

/-! ### The copy -/

variable {available : Nat → Bool} {attachments : AttachmentArray s} {len : Nat}

/-- The buffer after the `memcpy`. -/
theorem copied_of_copyable (hlen : len ≠ 0) (htag : attachments.cap.tag = true)
    (h : Copyable available attachments.cap len) :
    ∃ entries, entries.length = len ∧
      (∀ i, i < len → entries[i]? = some (attachments.read i)) ∧
      handleAttachments available attachments len = attachmentLoop (some entries) 0 len := by
  obtain ⟨hsize, havailable, hot, hspans⟩ := h
  have hpos : len * sizeofAttachment ≠ 0 := by
    simp only [sizeofAttachment, chericapSize]
    omega
  have hn : len * sizeofAttachment / sizeofAttachment = len := Nat.mul_div_cancel _ (by decide)
  have hloads : attachments.cap.Loads 0 (len * sizeofAttachment) :=
    ⟨htag, by simp [hot], hspans⟩
  obtain ⟨entries, hcopy, hlen'⟩ : ∃ entries,
      memcpy (List.replicate len (.cleared s)) 0 ((List.range len).map attachments.read) 0 len =
        some entries ∧ entries.length = (List.replicate len (Attachment.cleared s)).length :=
    exists_memcpy (by simp) (by simp)
  refine ⟨entries, by simpa using hlen', fun i hi => ?_, ?_⟩
  · rw [getElem?_of_memcpy hcopy i, if_pos ⟨Nat.zero_le i, by omega⟩]
    simp [hi]
  · have hbuf : callocAttachments s available len = some (List.replicate len (.cleared s)) :=
      if_pos ⟨hsize, havailable⟩
    simp only [handleAttachments, if_neg hlen, hbuf, Nat.mod_eq_of_lt hsize, copyAttachments,
      if_neg hpos, if_pos hloads, hn, hcopy, Option.bind_eq_bind, Option.bind_some]

/-- Attachments that cannot be copied bring ipcd down. -/
theorem handleAttachments_of_not_copyable (hlen : len ≠ 0)
    (h : ¬Copyable available attachments.cap len) :
    handleAttachments available attachments len = none := by
  simp only [handleAttachments, hlen, if_false, Option.bind_eq_bind]
  by_cases hbuf : len * sizeofAttachment < 2 ^ 64 ∧ available (len * sizeofAttachment) = true
  · have hloads : ¬attachments.cap.Loads 0 (len * sizeofAttachment) := by
      rintro ⟨-, hot, hspans⟩
      exact h ⟨hbuf.1, hbuf.2, by simpa using hot, hspans⟩
    have hpos : len * sizeofAttachment ≠ 0 := by
      simp only [sizeofAttachment, chericapSize]
      omega
    rw [Nat.mod_eq_of_lt hbuf.1, copyAttachments, if_neg hpos, if_neg hloads]
    rfl
  · -- There is no buffer, and the result of `calloc` is not looked at.
    have hnull : callocAttachments s available len = none := if_neg hbuf
    rw [hnull, copyAttachments]
    split
    · exact attachmentLoop_null hlen
    · split <;> rfl

theorem handlesAll_iff (hlen : len ≠ 0) (htag : attachments.cap.tag = true) :
    HandlesAll available attachments len ↔
      Copyable available attachments.cap len ∧
        ∀ i, i < len → ¬Poisons (attachments.read i) := by
  by_cases hcopy : Copyable available attachments.cap len
  · obtain ⟨entries, hlength, hentries, hhandle⟩ := copied_of_copyable hlen htag hcopy
    cases attachmentsCase entries 0 len (by omega) with
    | faulted j a hj ha hpoison hloop =>
      refine iff_of_false ?_ ?_
      · rintro ⟨buf, hbuf, -⟩
        simp [hhandle, hloop] at hbuf
      · rintro ⟨-, hclean⟩
        rw [hentries j (by omega), Option.some.injEq] at ha
        exact hclean j (by omega) (ha ▸ hpoison)
    | checked hclean out hout _ hsanitised hloop =>
      refine iff_of_true ⟨some out, hhandle.trans hloop, hout.trans hlength, fun i hi => ?_⟩
        ⟨hcopy, fun i hi => ?_⟩
      · exact hsanitised i _ (Nat.zero_le i) (by omega) (hentries i hi)
      · exact hclean i _ (Nat.zero_le i) (by omega) (hentries i hi)
  · refine iff_of_false ?_ (fun h => hcopy h.1)
    rintro ⟨buf, hbuf, -⟩
    simp [handleAttachments_of_not_copyable hlen hcopy] at hbuf

/-- Accepted attachments are behind a capability with a tag. -/
theorem tag_of_accepted {args : CosendArgs s} (h : s.validateCosendArgs args = some true)
    (hlen : args.oobLen ≠ 0) : args.attachments.tag = true := by
  unfold PortTables.validateCosendArgs at h
  split at h
  · cases h
  · split at h
    · cases h
    · split at h
      · cases h
      · obtain ⟨valid, -, h⟩ := Option.bind_eq_some_iff.mp h
        split at h
        · cases h
        · split at h
          · cases h
          · rename_i htag
            simpa using htag

end

/-- What `coport_open` has returned for it. -/
def onePortHandle : ClientCap onePort where
  cap := onePort.handle .cocarrier 0
  unforged := by
    rintro type - hot
    obtain rfl : CoportType.cocarrier = type := by simpa [PortTables.handle] using hot
    exact ⟨0, by decide, rfl⟩

/-- A `cosend` of an empty message with `len` attachments at the start of a page of the client. -/
def attachArgs (len : Nat) : CosendArgs onePort where
  length := 0
  message := ⟨true, none, 4096, 16, 4096, permLoad⟩
  cocarrier := onePortHandle
  oobLen := len
  attachments := ⟨true, none, 8192, 4096, 8192, permLoad ||| permLoadCap⟩

/-- The coport itself, again and again. -/
def attachHandle (_ : Nat) : Attachment onePort :=
  ⟨onePortHandle, CoportAttachmentType.attachmentCoport.toInt⟩

end Comsg.Proofs.Ipcd
