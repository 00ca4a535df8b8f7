import Comsg.Proofs.Nsd.Rights

/-!
# `Comsg.Proofs.Nsd.Select`: what a selected handle allows

A client with nothing but a capability to a namespace gets handles from `coselect`, and may
present them to `codelete` and `coupdate`. `Client` describes the requests it can make.

`coselect` returns nsd's own capability to the object, of which it clears at most the store
permissions. So each handle carries the delete permission, and the handle of a reservation the
write permission too. `select_gains_nothing_iff` follows: the client is kept from all changes
only where it cannot select anything.
-/

set_option autoImplicit false

namespace Comsg.Proofs.Nsd

open Comsg.Lib
open Comsg.Nsd
open Comsg.Nsd.Tables (nsobjPtr)

/-- A request that the client can make with `c` and the handles that it holds. -/
def Allowed (c : NsCap) (held : List NsCap) : Request → Prop
  | .coselect args => args.nsCap = c
  | .codelete args => args.nsCap = c ∧ args.nsobj ∈ held
  | .coupdate args => args.nsobj ∈ held
  | _              => False

/-- The handles that the client holds after a request. -/
def gained (held : List NsCap) : Request × Reply → List NsCap
  | (.coselect _, .ok cap) => cap :: held
  | _                      => held

/-- The log of a client with `c` and the handles that it holds at the start. -/
def Client (c : NsCap) : List NsCap → List (Request × Reply) → Prop
  | _, []           => True
  | held, e :: log => Allowed c held e.1 ∧ Client c (gained held e) log

/-- A run from `s` of a client that holds nothing but `c`. -/
def ClientRun (s : Tables) (c : NsCap) (log : List (Request × Reply)) : Prop :=
  ∃ reqs t, runLog Tables.handle s reqs = some (t, log) ∧ Client c [] log

/-- No handle from `coselect` has the delete or the write permission. -/
def HandlesHarmless (s : Tables) (c : NsCap) : Prop :=
  ∀ log args cap, ClientRun s c log → (Request.coselect args, Reply.ok cap) ∈ log →
    ¬Meets cap.perms nsobjPermD ∧ ¬Meets cap.perms nsobjPermW

/-- No `codelete` and no `coupdate` of the client succeeds. -/
def ChangesRefused (s : Tables) (c : NsCap) : Prop :=
  ∀ log args reply, ClientRun s c log →
    (Request.codelete args, reply) ∈ log ∨ (Request.coupdate args, reply) ∈ log →
    reply.isOk = false

/-- Some object can be selected with `c`. -/
def Selectable (s : Tables) (c : NsCap) : Prop :=
  ∃ args p i o, args.nsCap = c ∧ Selects s args p i o

section Clients
variable {maxNamespaces maxNsobjects : Nat} {s t : Tables} {c : NsCap} {p i : Nat}
  {args : ObjectArgs} {o : Nsobject}
  {handles : List UInt8 → Option { handle : NsCap // handle.tag = true }}

/-- The handle of an object keeps the delete permission. -/
theorem selectedCap_permits (i : Nat) (type : NsobjectType) :
    Meets (selectedCap i type).perms nsobjPermD := by
  unfold selectedCap
  split
  · show Meets dataPerms nsobjPermD
    decide
  · show Meets (dataPerms &&& ~~~nsobjPermW) nsobjPermD
    decide

/-- nsd reads the object through a handle that it gave out. -/
theorem nsobj_selectedCap (type : NsobjectType) (ho : s.nsobjects[i]? = some o) :
    s.nsobj (unsealNsobj (selectedCap i type)) = some (i, o) := by
  refine nsobj_eq_some.mpr ⟨?_, ho⟩
  unfold selectedCap
  split
  · show (nsobjPtr i).load = some (.nsobj i)
    exact Cap.load_eq_some.mpr ⟨rfl, rfl, show Meets dataPerms permLoad by decide, rfl⟩
  · show ((nsobjPtr i).clearperm nsobjPermW).load = some (.nsobj i)
    exact Cap.load_eq_some.mpr
      ⟨rfl, rfl, show Meets (dataPerms &&& ~~~nsobjPermW) permLoad by decide, rfl⟩

/-- The handle of an object passes `valid_nsobject_cap`. -/
theorem validNsobjectCap_selectedCap (hsel : Selects s args p i o) :
    s.validNsobjectCap (selectedCap i o.type) = some true := by
  obtain ⟨-, -, -, ho⟩ := hsel.lists
  have hlt : i < s.nsobjects.length := (List.getElem?_eq_some_iff.mp ho).1
  unfold selectedCap
  split
  · have hptr : (nsobjPtr i).sealWith .reservationNsobj =
        ⟨true, some (.nsobj i), dataPerms, some .reservationNsobj, sizeofNsobject, by simp⟩ := rfl
    simp [hptr, Tables.validNsobjectCap, Tables.inNsobjectTable, hlt, Tables.getNsobjectType,
      nsobjOtypeToType]
  · rename_i hres
    have htype : o.type ≠ .invalidNsobj := by
      intro htype
      have hvalid := hsel.validType
      rw [← hsel.type, htype] at hvalid
      simp [validNsobjType] at hvalid
    have hread := nsobj_selectedCap o.type ho
    rw [selectedCap, if_neg hres] at hread
    have hunsealed : unsealNsobj ((nsobjPtr i).clearperm nsobjPermW) =
        (nsobjPtr i).clearperm nsobjPermW := rfl
    rw [hunsealed] at hread
    have hkind : s.getNsobjectType ((nsobjPtr i).clearperm nsobjPermW) = some o.type := by
      show (s.nsobj ((nsobjPtr i).clearperm nsobjPermW)).map (fun q => q.2.type) = some o.type
      rw [hread]
      rfl
    have htable : s.inNsobjectTable ((nsobjPtr i).clearperm nsobjPermW) = true := by
      show decide (i < s.nsobjects.length) = true
      simpa using hlt
    have hlength : ((nsobjPtr i).clearperm nsobjPermW).length = sizeofNsobject := rfl
    have htag : ((nsobjPtr i).clearperm nsobjPermW).tag = true := rfl
    simp [Tables.validNsobjectCap, htag, hlength, htable, hkind, htype]

/-- A client that has selected an object can delete it. -/
theorem delete_of_selects (h : TablesOk s) (hsel : Selects s args p i o) :
    s.handle (.codelete { args with nsobj := selectedCap i o.type }) =
      some (removeObject s p i, .ok .null) := by
  obtain ⟨space, hp, hi, ho⟩ := hsel.lists
  refine (codelete_ok_iff h).mpr ⟨p, i, o, ?_, rfl, rfl⟩
  refine ⟨hsel.opens, validNsobjectCap_selectedCap hsel, selectedCap_permits i o.type,
    nsobj_selectedCap o.type ho, hsel.lists, fun hne hnull => ?_⟩
  have htag := hsel.ready hne
  rw [o.obj.untagged_of_null hnull] at htag
  cases htag

/-- Where nothing can be selected, the client gets no handle, and every request of it is
refused. -/
theorem clientRun_refused (h : TablesOk s) (hno : ¬Selectable s c) {log : List (Request × Reply)}
    (hrun : ClientRun s c log) : ∀ e ∈ log, (∃ args, e.1 = .coselect args) ∧ e.2.isOk = false := by
  obtain ⟨reqs, t, hrun, hclient⟩ := hrun
  induction reqs generalizing log with
  | nil =>
    cases hrun
    simp
  | cons r reqs ih =>
    obtain ⟨s₁, reply, log', hs, hrest, rfl⟩ := runLog_cons hrun
    obtain ⟨hallowed, hclient⟩ := hclient
    -- The client holds no handle, so the request is a `coselect`.
    cases r with
    | coselect args =>
      cases reply with
      | ok cap =>
        obtain ⟨p, i, o, hsel, -⟩ := (coselect_ok_iff h).mp hs
        exact absurd ⟨args, p, i, o, hallowed, hsel⟩ hno
      | err error =>
        cases handle_effect hs
        intro e he
        rcases List.mem_cons.mp he with rfl | he
        · exact ⟨⟨args, rfl⟩, rfl⟩
        · exact ih hrest hclient e he
    | codelete args => cases hallowed.2
    | coupdate args => cases hallowed
    | coinsert args => exact hallowed.elim
    | cocreate args => exact hallowed.elim
    | codrop args => exact hallowed.elim

/-- A client that holds a capability to a namespace and selected handles is kept from every
change, and its handles from every such permission, just where it cannot select anything. -/
theorem select_gains_nothing_iff
    (h : Reach Tables.step anyAct (initTables maxNamespaces maxNsobjects handles) s) (c : NsCap) :
    (HandlesHarmless s c ↔ ¬Selectable s c) ∧ (ChangesRefused s c ↔ ¬Selectable s c) := by
  have hok := tablesOk_reach h
  refine ⟨⟨?_, fun hno log args cap hrun hmem => ?_⟩, ?_, fun hno log args reply hrun hmem => ?_⟩
  · rintro hharmless ⟨args, p, i, o, rfl, hsel⟩
    have hselect := (coselect_ok_iff hok).mpr ⟨p, i, o, hsel, rfl, rfl⟩
    have hrun : ClientRun s args.nsCap [(.coselect args, .ok (selectedCap i o.type))] :=
      ⟨[.coselect args], s, by simp [runLog, hselect], rfl, trivial⟩
    exact (hharmless _ args _ hrun List.mem_cons_self).1 (selectedCap_permits i o.type)
  · exact absurd (clientRun_refused hok hno hrun _ hmem).2 (by simp [Reply.isOk])
  · rintro hrefused ⟨args, p, i, o, rfl, hsel⟩
    have hselect := (coselect_ok_iff hok).mpr ⟨p, i, o, hsel, rfl, rfl⟩
    have hdelete := delete_of_selects hok hsel
    have hrun : ClientRun s args.nsCap [(.coselect args, .ok (selectedCap i o.type)),
        (.codelete { args with nsobj := selectedCap i o.type }, .ok .null)] :=
      ⟨[.coselect args, .codelete { args with nsobj := selectedCap i o.type }], removeObject s p i,
        by simp [runLog, hselect, hdelete], rfl, ⟨rfl, List.mem_cons_self⟩, trivial⟩
    have hok := hrefused _ _ _ hrun (.inl (List.mem_cons_of_mem _ List.mem_cons_self))
    cases hok
  · rcases hmem with hmem | hmem
    · exact (clientRun_refused hok hno hrun _ hmem).2
    · exact (clientRun_refused hok hno hrun _ hmem).2

end Clients

/-- The owner's capability to the namespace `b`. -/
def ownerB : NsCap := ((Tables.nsPtr 1).andperm nsPermsOwnMask).sealWith .publicNscap

/-- Nothing can be selected in a new namespace. -/
theorem select_gains_nothing_iff_new :
    ∃ s, runFrom Tables.step freshTables [.cocreate spaceB] = some s ∧
      s.validNamespaceCap ownerB = some true ∧ ¬Selectable s ownerB ∧
      HandlesHarmless s ownerB ∧ ChangesRefused s ownerB := by
  obtain ⟨s, hs, hreach⟩ := exists_reach_of_isSome Tables.step [.cocreate spaceB] freshTables
    (by decide)
  have hvalid : s.validNamespaceCap ownerB = some true :=
    eq_of_map_runFrom (fun s => s.validNamespaceCap ownerB) hs (by decide)
  have hempty : s.namespaces[1]?.map Namespace.objects = some [] :=
    eq_of_map_runFrom (fun s => s.namespaces[1]?.map Namespace.objects) hs (by decide)
  have hno : ¬Selectable s ownerB := by
    rintro ⟨args, p, i, o, hcap, hsel⟩
    have htarget := hsel.opens.target
    rw [hcap] at htarget
    cases htarget
    obtain ⟨space, hspace, hi, -⟩ := hsel.lists
    rw [hspace] at hempty
    cases Option.some.inj hempty ▸ hi
  have hiff := select_gains_nothing_iff hreach ownerB
  exact ⟨s, hs, hvalid, hno, hiff.1.mpr hno, hiff.2.mpr hno⟩

/-- A request for the coport `a` with a capability to the root that confers no rights, and the
request to delete it with the handle that the first returns. -/
def selectA : ObjectArgs := { coportA with nsCap := rootObjCap }
def deleteA : ObjectArgs := { selectA with nsobj := selectedCap 6 .coport }

/-- A client without rights to the root selects the coport `a` of someone else and deletes it. -/
theorem selected_handle_deletes :
    ∃ s, Reach Tables.step anyAct freshTables s ∧ ¬HandlesHarmless s rootObjCap ∧
      ¬ChangesRefused s rootObjCap := by
  obtain ⟨s, hs, hreach⟩ := exists_reach_of_isSome Tables.step [.coinsert coportA] freshTables
    (by decide)
  have hlog : (runLog Tables.handle s [.coselect selectA, .codelete deleteA]).map Prod.snd =
      some [(.coselect selectA, .ok (selectedCap 6 .coport)), (.codelete deleteA, .ok .null)] :=
    eq_of_map_runFrom (fun s =>
      (runLog Tables.handle s [.coselect selectA, .codelete deleteA]).map Prod.snd) hs (by decide)
  obtain ⟨⟨t, log⟩, hrun, hlog⟩ := Option.map_eq_some_iff.mp hlog
  dsimp only at hlog
  subst hlog
  have hclient : ClientRun s rootObjCap
      [(.coselect selectA, .ok (selectedCap 6 .coport)), (.codelete deleteA, .ok .null)] :=
    ⟨_, t, hrun, rfl, ⟨rfl, List.mem_cons_self⟩, trivial⟩
  refine ⟨s, hreach, fun h => ?_, fun h => ?_⟩
  · exact (h _ selectA _ hclient List.mem_cons_self).1 (by decide)
  · have hrefused := h _ deleteA _ hclient (.inl (List.mem_cons_of_mem _ List.mem_cons_self))
    cases hrefused

end Comsg.Proofs.Nsd
