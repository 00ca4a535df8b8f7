import Comsg.Proofs.Nsd.Tables

/-!
# `Comsg.Proofs.Nsd.Directory`: nsd's objects refine a map

`Directory` is the map that nsd's objects stand for, from namespaces and names to objects with
their type and handle. `Directory.record` says what a request and its answer mean for it, with no
look at the tables. `listing` reads the map off the tables, and `listing_effect` shows that the
two go together, request by request. `coselect` answers by the listing (`handle_coselect`).

`nsd_objects_refine_map` puts this together for every run, in which the reservations that nsd
makes for its own services are in the map from the start.
-/

set_option autoImplicit false

namespace Comsg.Proofs.Nsd

open Comsg.Lib
open Comsg.Nsd
open Comsg.Nsd.Tables (nsobjPtr)

/-! ### The map -/

/-- What a name stands for: an object, with its type and the handle stored in it. -/
structure Entry where
  object : Nat
  type : NsobjectType
  handle : NsCap
  deriving DecidableEq

/-- A map from namespaces and names to objects. -/
abbrev Directory := Nat → List UInt8 → Option Entry

/-- What a request and its answer mean for the map. A `coinsert` that succeeds enters its object
under its name. A `codelete` that succeeds takes the entry of its object out of its namespace. A
`coupdate` that succeeds changes type and handle of the entry of its object. -/
def Directory.record (d : Directory) : Request × Reply → Directory
  | (.coinsert args, .ok cap) => fun p n =>
    match cap.target with
    | some (.nsobj i) =>
      if args.nsCap.target = some (.ns p) ∧ n = nsName args.nsobjName then
        some ⟨i, args.nsobjType, insertedHandle args⟩
      else d p n
    | _ => d p n
  | (.codelete args, .ok _) => fun p n =>
    (d p n).filter fun e =>
      ¬(args.nsCap.target = some (.ns p) ∧ args.nsobj.target = some (.nsobj e.object))
  | (.coupdate args, .ok _) => fun p n =>
    (d p n).map fun e =>
      if args.nsobj.target = some (.nsobj e.object) then
        { e with type := args.nsobjType, handle := args.obj }
      else e
  | _ => d

/-- The entry for a name in the tables. -/
def listing (s : Tables) : Directory := fun p n => do
  let space ← s.namespaces[p]?
  let i ← space.objects.find? fun i => s.nsobjects[i]?.map (fun o => nsName o.name) = some n
  let o ← s.nsobjects[i]?
  some ⟨i, o.type, o.obj⟩

section Listing
variable {s s' : Tables} {p : Nat} {n : List UInt8} {e : Entry}

/-- The entries of the listing are the objects that are listed. -/
theorem listing_eq_some (h : TablesOk s) : listing s p n = some e ↔
    ∃ o, Lists s p e.object o ∧ nsName o.name = n ∧ o.type = e.type ∧ o.obj = e.handle := by
  simp only [listing, Option.bind_eq_bind, Option.bind_eq_some_iff, Option.some.injEq]
  constructor
  · rintro ⟨space, hspace, i, hfind, o, ho, rfl⟩
    have hname := List.find?_some hfind
    simp only [ho, Option.map_some, decide_eq_true_eq, Option.some.injEq] at hname
    exact ⟨o, ⟨space, hspace, List.mem_of_find?_eq_some hfind, ho⟩, hname, rfl, rfl⟩
  · rintro ⟨o, ⟨space, hspace, hmem, ho⟩, hname, htype, hobj⟩
    refine ⟨space, hspace, e.object, ?_, o, ho, by rw [htype, hobj]⟩
    -- No other object of the namespace has the name.
    cases hfind : space.objects.find? fun i =>
        s.nsobjects[i]?.map (fun o => nsName o.name) = some n with
    | none =>
      have hne := List.find?_eq_none.mp hfind e.object hmem
      simp [ho, hname] at hne
    | some j =>
      have hj := List.find?_some hfind
      have hjmem := List.mem_of_find?_eq_some hfind
      simp only [decide_eq_true_eq, Option.map_eq_some_iff] at hj
      obtain ⟨o', ho', hname'⟩ := hj
      have hjo : Lists s p j o' := ⟨space, hspace, hjmem, ho'⟩
      have hio : Lists s p e.object o := ⟨space, hspace, hmem, ho⟩
      rw [h.one_name p j e.object o' o hjo hio (hname'.trans hname.symm)]

/-- A request changes the listing just as the map records it. -/
theorem listing_effect {r : Request} {reply : Reply} (h : TablesOk s) (he : Effect s r s' reply) :
    listing s' = (listing s).record (r, reply) := by
  have h' := tablesOk_effect h he
  cases he with
  | refused r error => cases r <;> rfl
  | inserted args q space cap hwr hopen hname htype hobjects hspaces hcap =>
    obtain ⟨htarget, hq⟩ := openNs_target hopen
    funext p n
    refine Option.ext fun e => ?_
    simp only [Directory.record, hcap, insertedCap_target, htarget, Option.some.injEq,
      Target.ns.injEq]
    rw [listing_eq_some h']
    simp only [lists_addObject h hq]
    split
    · rename_i hhere
      obtain ⟨rfl, rfl⟩ := hhere
      constructor
      · rintro ⟨o, ⟨space', hspace', hmem, ho⟩ | ⟨-, hi, rfl⟩, hn, ht, hobj⟩
        · -- No object had the name before.
          rw [hq, Option.some.injEq] at hspace'
          have hnamed : s.objectNamed args.nsobjName e.object = true :=
            objectNamed_iff.mpr ⟨o, ho, hn⟩
          simp [hobjects _ (hspace' ▸ hmem)] at hnamed
        · rw [Option.some.injEq, ← hi]
          simp only [insertedObject] at ht hobj
          rw [ht, hobj]
      · intro heq
        cases heq
        exact ⟨insertedObject args, .inr ⟨rfl, rfl, rfl⟩, by simp [insertedObject], rfl, rfl⟩
    · rename_i hother
      rw [listing_eq_some h]
      constructor
      · rintro ⟨o, hl | ⟨rfl, -, rfl⟩, hn, ht, hobj⟩
        · exact ⟨o, hl, hn, ht, hobj⟩
        · exact absurd ⟨rfl, by rw [← hn]; simp [insertedObject]⟩ hother
      · rintro ⟨o, hl, hn, ht, hobj⟩
        exact ⟨o, .inl hl, hn, ht, hobj⟩
  | insertedNothing args => rfl
  | selected args cap => rfl
  | deleted args q i space o hopen ho hcap hmem =>
    obtain ⟨htarget, hq⟩ := openNs_target hopen
    funext p n
    refine Option.ext fun e => ?_
    simp only [Directory.record, hcap, htarget, Option.filter_eq_some_iff, Option.some.injEq,
      Target.ns.injEq, Target.nsobj.injEq, decide_eq_true_eq]
    rw [listing_eq_some h', listing_eq_some h]
    simp only [lists_removeObject h hq hmem]
    constructor
    · rintro ⟨o', ⟨hl, hne⟩, hrest⟩
      exact ⟨⟨o', hl, hrest⟩, fun hhere => hne hhere.2.symm⟩
    · rintro ⟨⟨o', hl, hrest⟩, hne⟩
      refine ⟨o', ⟨hl, fun heq => ?_⟩, hrest⟩
      -- The object is listed in one namespace only.
      have hlist : Lists s q e.object o' := by
        obtain ⟨-, -, -, ho'⟩ := hl
        exact ⟨space, hq, heq ▸ hmem, ho'⟩
      exact hne ⟨h.one_space q p e.object o' hlist hl, heq.symm⟩
  | updated args i o cap hcap ho hreserved htype =>
    funext p n
    refine Option.ext fun e => ?_
    simp only [Directory.record, hcap, Option.map_eq_some_iff, Option.some.injEq,
      Target.nsobj.injEq]
    rw [listing_eq_some h']
    simp only [lists_fillObject]
    constructor
    · rintro ⟨_, ⟨old, hl, rfl⟩, hn, ht, hobj⟩
      refine ⟨⟨e.object, old.type, old.obj⟩, (listing_eq_some h).mpr ⟨old, hl, ?_, rfl, rfl⟩, ?_⟩
      · split at hn <;> exact hn
      · by_cases hi : i = e.object
        · simp only [if_pos hi] at ht hobj ⊢
          rw [ht, hobj]
        · simp only [if_neg hi] at ht hobj ⊢
          rw [ht, hobj]
    · rintro ⟨e', he', rfl⟩
      obtain ⟨old, hl, hn, ht, hobj⟩ := (listing_eq_some h).mp he'
      by_cases hi : i = e'.object
      · simp only [if_pos hi]
        exact ⟨_, ⟨old, hl, rfl⟩, hn, rfl, rfl⟩
      · simp only [if_neg hi]
        exact ⟨old, ⟨old, hl, rfl⟩, hn, ht, hobj⟩
  | found args cap hwr => rfl
  | created args q space parent cap hwr hvalid hopen hspaces =>
    funext p n
    refine Option.ext fun e => ?_
    simp only [Directory.record]
    rw [listing_eq_some h', listing_eq_some h]
    simp only [lists_addNamespace]
  | dropped args i space hopen hmem =>
    exact absurd (h.child i space i (openNs_target hopen).2 hmem).1 (Nat.lt_irrefl i)

end Listing

/-! ### `coselect` reads the map -/

/-- The capability opens namespace `p`. nsd hands out such capabilities. -/
structure Opens (s : Tables) (c : NsCap) (p : Nat) : Prop where
  valid : s.validNamespaceCap c = some true
  load : Meets c.perms permLoad
  loadCap : Meets c.perms permLoadCap
  target : c.target = some (.ns p)

/-- What `coselect` answers when the name stands for the given entry. -/
def answer (args : ObjectArgs) : Option Entry → Reply
  | none => if validNsName args.nsobjName ∧ validNsobjType args.nsobjType then .err .enoent
    else .err .einval
  | some e =>
    if validNsName args.nsobjName ∧ validNsobjType args.nsobjType then
      if e.type ≠ args.nsobjType then .err .enoent
      else if e.type ≠ .reservation ∧ e.handle.tag = false then .err .enoent
      else if e.type = .reservation then
        .ok ((nsobjPtr e.object).sealWith .reservationNsobj)
      else .ok ((nsobjPtr e.object).clearperm nsobjPermW)
    else .err .einval

section Select
variable {s s' : Tables} {c : NsCap} {p : Nat} {args : ObjectArgs}

theorem validNamespaceCap_true (h : s.validNamespaceCap c = some true) :
    c.tag = true ∧ s.inNsTable c = true ∧
      ∃ type, s.getNsType c = some type ∧ type ≠ .invalidNs := by
  unfold Tables.validNamespaceCap at h
  split at h
  · cases h
  · rename_i htag
    split at h
    · cases h
    · split at h
      · cases h
      · rename_i htable
        obtain ⟨type, htype, hne⟩ := Option.map_eq_some_iff.mp h
        exact ⟨by simpa using htag, by simpa using htable, type, htype, by simpa using hne⟩

theorem Opens.openNs (h : Opens s c p) :
    ∃ space, s.namespaces[p]? = some space ∧ s.openNs c = some (p, space) := by
  obtain ⟨htag, htable, type, htype, hne⟩ := validNamespaceCap_true h.valid
  have hlt : p < s.namespaces.length := by
    simpa [Tables.inNsTable, h.target] using htable
  have hspace : s.namespaces[p]? = some s.namespaces[p] := List.getElem?_eq_getElem hlt
  have hseal : ∀ ot ∈ c.otype, nsOtypeToType ot ≠ .invalidNs := by
    intro ot hot
    simp only [Tables.getNsType, Option.mem_def.mp hot, Option.some.injEq] at htype
    exact htype ▸ hne
  exact ⟨_, hspace, openNs_eq_some.mpr ⟨htag, hseal, h.load, h.loadCap, h.target, hspace⟩⟩

/-- nsd compares names as the listing does. -/
theorem objectNamed_eq (name : List UInt8) : s.objectNamed name =
    fun i => decide (s.nsobjects[i]?.map (fun o => nsName o.name) = some (nsName name)) := by
  funext i
  rw [Bool.eq_iff_iff, objectNamed_iff, decide_eq_true_eq, Option.map_eq_some_iff]

/-- The handler of `coselect` on an open namespace. -/
theorem select_eq (h : Opens s args.nsCap p) (hname : validNsName args.nsobjName = true)
    (htype : validNsobjType args.nsobjType = true) : s.namespaceObjectSelect args =
      some (s, answer args (listing s p (nsName args.nsobjName))) := by
  obtain ⟨space, hspace, hopen⟩ := h.openNs
  simp only [Tables.namespaceObjectSelect, Tables.lookupNsobject, hopen, objectNamed_eq, listing,
    hspace, Option.bind_eq_bind, Option.bind_some]
  cases hfind : space.objects.find? fun i =>
      decide (s.nsobjects[i]?.map (fun o => nsName o.name) = some (nsName args.nsobjName)) with
  | none => simp [answer, hname, htype, Cap.null]
  | some i =>
    have hi := List.find?_some hfind
    simp only [decide_eq_true_eq, Option.map_eq_some_iff] at hi
    obtain ⟨o, ho, -⟩ := hi
    have hptr : (nsobjPtr i).target ≠ none := by simp [nsobjPtr]
    have hread : s.nsobj (nsobjPtr i) = some (i, o) := by simp [nsobj_nsobjPtr, ho]
    simp only [ho, Option.bind_some, answer, hname, htype, and_self, if_true]
    by_cases hot : o.type = args.nsobjType
    · by_cases hres : o.type = .reservation
      · simp [hot, hres ▸ hot, hptr, hread, sealNsobj_reservation hread hres]
      · cases htag : o.obj.tag with
        | false =>
          by_cases hnull : o.obj.target = none
          · simp [hot, hot ▸ hres, hnull, Cap.null]
          · simp [hot, hot ▸ hres, hnull, htag, hptr, hread]
        | true =>
          have hnull : o.obj.target ≠ none := by
            intro hnull
            simp [o.obj.untagged_of_null hnull] at htag
          simp [hot, hot ▸ hres, hnull, htag, hptr, hread]
    · simp [hot, Cap.null]

/-- `coselect` on an open namespace answers by the listing, and leaves the tables alone. -/
theorem handle_coselect (h : Opens s args.nsCap p) : s.handle (.coselect args) =
    some (s, answer args (listing s p (nsName args.nsobjName))) := by
  have hrefused (hno : ¬(validNsName args.nsobjName = true ∧
      validNsobjType args.nsobjType = true)) (e : Option Entry) : answer args e = .err .einval := by
    cases e <;> simp [answer, hno]
  simp only [Tables.handle, Tables.validated, Tables.validateCoselectArgs, h.valid,
    Option.bind_eq_bind, Option.bind_some]
  by_cases hname : validNsName args.nsobjName = true
  · by_cases htype : validNsobjType args.nsobjType = true
    · simpa [hname, htype] using select_eq h hname htype
    · simp [hname, htype, hrefused (by simp [htype])]
  · simp [hname, hrefused (by simp [hname])]

/-- A namespace keeps its type. -/
theorem effect_type {r : Request} {reply : Reply} {space : Namespace} (h : TablesOk s)
    (he : Effect s r s' reply) (hp : s.namespaces[p]? = some space) :
    ∃ space', s'.namespaces[p]? = some space' ∧ space'.type = space.type := by
  cases he with
  | inserted args q _ _ _ hopen =>
    refine ⟨_, addObject_namespaces.mpr ⟨space, hp, rfl⟩, ?_⟩
    split <;> rfl
  | deleted args q i _ _ hopen =>
    refine ⟨_, removeObject_namespaces.mpr ⟨space, hp, rfl⟩, ?_⟩
    split <;> rfl
  | created args q _ _ _ _ _ hopen =>
    refine ⟨_, addNamespace_namespaces.mpr (.inr ⟨space, hp, rfl⟩), ?_⟩
    split <;> rfl
  | dropped args i own hopen hmem =>
    exact absurd (h.child i own i (openNs_target hopen).2 hmem).1 (Nat.lt_irrefl i)
  | _ => exact ⟨space, hp, rfl⟩

/-- A capability that opens a namespace goes on to open it. -/
theorem Opens.effect {r : Request} {reply : Reply} (h : TablesOk s) (he : Effect s r s' reply)
    (hc : Opens s c p) : Opens s' c p := by
  obtain ⟨space, hspace, -⟩ := hc.openNs
  obtain ⟨space', hspace', hsame⟩ := effect_type h he hspace
  have htable : s'.inNsTable c = true := by
    have hlt := (List.getElem?_eq_some_iff.mp hspace').1
    simpa [Tables.inNsTable, hc.target] using hlt
  have htype : s'.getNsType c = s.getNsType c := by
    unfold Tables.getNsType
    split
    · rename_i hot
      obtain ⟨htag, -⟩ := validNamespaceCap_true hc.valid
      have hload : c.load = some (.ns p) := Cap.load_eq_some.mpr ⟨htag, hot, hc.load, hc.target⟩
      rw [ns_eq_some.mpr ⟨hload, hspace⟩, ns_eq_some.mpr ⟨hload, hspace'⟩]
      simp [hsame]
    · rfl
  refine ⟨?_, hc.load, hc.loadCap, hc.target⟩
  have hvalid := hc.valid
  obtain ⟨htag, htable₀, -⟩ := validNamespaceCap_true hc.valid
  simp only [Tables.validNamespaceCap, htag, htable, htable₀, htype] at hvalid ⊢
  exact hvalid

end Select

/-! ### Runs -/

/-- The type is one of the four, and the handle is tagged unless the type is
`RESERVATION`. -/
def Ordinary : Request → Prop
  | .coinsert args | .coupdate args =>
    validNsobjType args.nsobjType = true ∧ (args.nsobjType ≠ .reservation → args.obj.tag = true)
  | _ => True

/-- Every object that is not a reservation holds a tagged handle. -/
def HandlesOk (s : Tables) : Prop :=
  ∀ p i o, Lists s p i o → o.type ≠ .reservation → o.obj.tag = true

/-- The request is about the name `n` in namespace `p`. -/
def Concerns (s : Tables) (p : Nat) (n : List UInt8) : Request → Prop
  | .coinsert args => args.nsCap.target = some (.ns p) ∧ n = nsName args.nsobjName
  | .codelete args | .coupdate args =>
    ∃ i o, args.nsobj.target = some (.nsobj i) ∧ Lists s p i o ∧ nsName o.name = n
  | _ => False

section Runs
variable {maxNamespaces maxNsobjects : Nat} {s s' : Tables} {r : Request} {reply : Reply}
  {handles : List UInt8 → Option { handle : NsCap // handle.tag = true }}

theorem handlesOk_effect (h : TablesOk s) (hh : HandlesOk s) (hr : Ordinary r)
    (he : Effect s r s' reply) : HandlesOk s' := by
  cases he with
  | inserted args q space cap hwr hopen hname htype hobjects hspaces hcap =>
    intro p i o hl hne
    rcases (lists_addObject h (openNs_target hopen).2).mp hl with hl | ⟨-, -, rfl⟩
    · exact hh p i o hl hne
    · have hne' : args.nsobjType ≠ .reservation := hne
      simpa [insertedObject, insertedHandle, hne'] using hr.2 hne'
  | deleted args q j space o' hopen ho' hcap hmem =>
    intro p i o hl
    exact hh p i o ((lists_removeObject h (openNs_target hopen).2 hmem).mp hl).1
  | updated args j o' cap hcap ho' hreserved htype =>
    intro p i o hl hne
    obtain ⟨old, hold, rfl⟩ := lists_fillObject.mp hl
    split
    · exact hr.2 htype
    · rename_i hji
      rw [if_neg hji] at hne
      exact hh p i old hold hne
  | created args q space parent cap hwr hvalid hopen hspaces =>
    intro p i o hl
    exact hh p i o ((lists_addNamespace rfl).mp hl)
  | dropped args i own hopen hmem =>
    exact absurd (h.child i own i (openNs_target hopen).2 hmem).1 (Nat.lt_irrefl i)
  | _ => exact hh

theorem handlesOk_init : HandlesOk (initTables maxNamespaces maxNsobjects handles) := by
  intro p i o hl hne
  obtain ⟨-, -, -, -, ⟨hres, -⟩ | ⟨-, htag⟩⟩ := lists_init hl
  · exact absurd hres hne
  · exact htag

/-- A run keeps the listing and the map in step. -/
theorem listing_run {reqs : List Request} {log : List (Request × Reply)}
    (hrun : runLog Tables.handle s reqs = some (s', log)) (h : TablesOk s) (hh : HandlesOk s)
    (hord : ∀ r ∈ reqs, Ordinary r) :
    TablesOk s' ∧ HandlesOk s' ∧ listing s' = log.foldl Directory.record (listing s) := by
  induction reqs generalizing s log with
  | nil =>
    cases hrun
    exact ⟨h, hh, rfl⟩
  | cons r reqs ih =>
    obtain ⟨s₁, reply, log', hs, hrest, rfl⟩ := runLog_cons hrun
    have he := handle_effect hs
    have hr := hord r List.mem_cons_self
    rw [List.foldl_cons, ← listing_effect h he]
    exact ih hrest (tablesOk_effect h he) (handlesOk_effect h hh hr he)
      fun r' hr' => hord r' (List.mem_cons_of_mem _ hr')

/-- What a request is not about stays as it was in the map. -/
theorem record_of_not_concerns {p : Nat} {n : List UInt8} (h : TablesOk s)
    (hr : ¬Concerns s p n r) : (listing s).record (r, reply) p n = listing s p n := by
  have hlisted {args : ObjectArgs} {e : Entry} (he : listing s p n = some e)
      (hobj : args.nsobj.target = some (.nsobj e.object)) :
      ∃ i o, args.nsobj.target = some (.nsobj i) ∧ Lists s p i o ∧ nsName o.name = n := by
    obtain ⟨o, hl, hn, -⟩ := (listing_eq_some h).mp he
    exact ⟨e.object, o, hobj, hl, hn⟩
  cases reply with
  | err error => cases r <;> rfl
  | ok cap =>
    cases r with
    | coinsert args =>
      simp only [Directory.record]
      split
      · exact if_neg hr
      · rfl
    | codelete args =>
      simp only [Directory.record]
      cases he : listing s p n with
      | none => rfl
      | some e =>
        refine Option.filter_eq_some_iff.mpr ⟨rfl, ?_⟩
        simp only [decide_eq_true_eq]
        exact fun hhere => hr (hlisted he hhere.2)
    | coupdate args =>
      simp only [Directory.record]
      cases he : listing s p n with
      | none => rfl
      | some e =>
        have hne : ¬args.nsobj.target = some (.nsobj e.object) := fun hobj => hr (hlisted he hobj)
        simp [hne]
    | _ => rfl

/-- The reply of `coselect` succeeds when the name stands for an object of that type. -/
theorem answer_isOk {args : ObjectArgs} {entry : Option Entry}
    (hname : validNsName args.nsobjName = true) (htype : validNsobjType args.nsobjType = true)
    (hhandle : ∀ e ∈ entry, e.type ≠ .reservation → e.handle.tag = true) :
    (answer args entry).isOk = true ↔ ∃ e, entry = some e ∧ e.type = args.nsobjType := by
  cases entry with
  | none => simp [answer, hname, htype, Reply.isOk]
  | some e =>
    by_cases ht : e.type = args.nsobjType
    · by_cases hres : e.type = .reservation
      · simp [answer, hname, ht, ht ▸ hres, validNsobjType, Reply.isOk]
      · have htag := hhandle e rfl hres
        simp [answer, hname, htype, ht, ht ▸ hres, htag, Reply.isOk]
    · simp [answer, hname, htype, ht, Reply.isOk]

/-- The capability in a reply of `coselect` is to the object of the entry. -/
theorem answer_target {args : ObjectArgs} {entry : Option Entry} {cap : NsCap}
    (h : answer args entry = .ok cap) :
    ∃ e, entry = some e ∧ cap.target = some (.nsobj e.object) := by
  cases entry with
  | none =>
    simp only [answer] at h
    split at h <;> cases h
  | some e =>
    refine ⟨e, rfl, ?_⟩
    simp only [answer] at h
    split at h
    · split at h
      · cases h
      · split at h
        · cases h
        · split at h <;> cases h <;> rfl
    · cases h

/-- nsd's objects refine a map from namespaces and names to objects. `coselect` succeeds when
the map has the name with the type asked for, and returns that object, which holds the handle of
the map. A request does not change the answer for a name it is not about. A `coinsert` succeeds
only when the map does not have the name. -/
theorem nsd_objects_refine_map {reqs : List Request} {log : List (Request × Reply)}
    (hrun : runLog Tables.handle (initTables maxNamespaces maxNsobjects handles) reqs =
      some (s, log))
    (hord : ∀ r ∈ reqs, Ordinary r) :
    let d := log.foldl Directory.record (listing (initTables maxNamespaces maxNsobjects handles))
    (∀ args p, Opens s args.nsCap p → validNsName args.nsobjName = true →
      validNsobjType args.nsobjType = true →
      ∃ reply, s.handle (.coselect args) = some (s, reply) ∧
        (reply.isOk = true ↔
          ∃ e, d p (nsName args.nsobjName) = some e ∧ e.type = args.nsobjType) ∧
        ∀ cap, reply = .ok cap → ∃ e, d p (nsName args.nsobjName) = some e ∧
          cap.target = some (.nsobj e.object) ∧
          (s.nsobjects[e.object]?).map Nsobject.obj = some e.handle) ∧
    (∀ r s' reply, s.handle r = some (s', reply) → ∀ args p, Opens s args.nsCap p →
      ¬Concerns s p (nsName args.nsobjName) r →
      (s'.handle (.coselect args)).map Prod.snd = (s.handle (.coselect args)).map Prod.snd) ∧
    ∀ args s' cap p, s.handle (.coinsert args) = some (s', .ok cap) →
      args.nsCap.target = some (.ns p) → d p (nsName args.nsobjName) = none := by
  obtain ⟨hok, hhandles, hd⟩ := listing_run hrun tablesOk_init handlesOk_init hord
  simp only [← hd]
  refine ⟨fun args p hopen hname htype => ?_, fun r s' reply hr args p hopen hnot => ?_,
    fun args s' cap p hr htarget => ?_⟩
  · refine ⟨_, handle_coselect hopen, answer_isOk hname htype fun e he hne => ?_,
      fun cap hcap => ?_⟩
    · obtain ⟨o, hl, -, ht, hobj⟩ := (listing_eq_some hok).mp he
      exact hobj ▸ hhandles p e.object o hl (ht ▸ hne)
    · obtain ⟨e, he, htarget⟩ := answer_target hcap
      obtain ⟨o, ⟨-, -, -, ho⟩, -, -, hobj⟩ := (listing_eq_some hok).mp he
      exact ⟨e, he, htarget, by simp [ho, hobj]⟩
  · have he := handle_effect hr
    rw [handle_coselect hopen, handle_coselect (hopen.effect hok he), listing_effect hok he,
      record_of_not_concerns hok hnot]
    rfl
  · have habsent {space : Namespace} (hopen : s.openNs args.nsCap = some (p, space))
        (hobjects : ∀ i ∈ space.objects, s.objectNamed args.nsobjName i = false) :
        listing s p (nsName args.nsobjName) = none := by
      refine Option.eq_none_iff_forall_ne_some.mpr fun e he => ?_
      obtain ⟨o, ⟨space', hspace', hmem, ho⟩, hn, -⟩ := (listing_eq_some hok).mp he
      rw [(openNs_target hopen).2, Option.some.injEq] at hspace'
      have hnamed := objectNamed_iff.mpr ⟨o, ho, hn⟩
      simp [hobjects _ (hspace' ▸ hmem)] at hnamed
    have hsame {q : Nat} {space : Namespace} (hopen : s.openNs args.nsCap = some (q, space)) :
        q = p := by
      have hq := (openNs_target hopen).1
      rw [htarget] at hq
      cases hq
      rfl
    cases handle_effect hr with
    | inserted _ q space _ _ hopen _ _ hobjects => exact habsent (hsame hopen ▸ hopen) hobjects
    | insertedNothing _ q space _ hopen _ hobjects => exact habsent (hsame hopen ▸ hopen) hobjects

end Runs

/-- Fresh tables with some room. -/
def freshTables : Tables := initTables 4 16 fun _ => none

/-- The owner's capability to the root namespace. -/
def rootCap : NsCap := ((Tables.nsPtr 0).andperm nsPermsOwnMask).sealWith .rootNscap

/-- A sealed handle of a client. -/
def clientHandle : NsCap := ⟨true, some (.client 1), 0, some .foreign, 0, by simp⟩

/-- A coport named `a`. -/
def coportA : ObjectArgs := ⟨rootCap, asciiBytes ['a'], .null, .coport, clientHandle⟩

/-- A public namespace `b` in the root. -/
def spaceB : SpaceArgs := ⟨rootCap, asciiBytes ['b'], .public_⟩

/-- After a `coinsert` of the coport `a`, `coselect` returns it. -/
theorem nsd_objects_refine_map_insert :
    ∃ s log cap, runLog Tables.handle freshTables [.coinsert coportA] = some (s, log) ∧
      s.handle (.coselect coportA) = some (s, .ok cap) ∧ cap.target = some (.nsobj 6) := by
  obtain ⟨⟨s, log⟩, hrun⟩ : ∃ q, runLog Tables.handle freshTables [.coinsert coportA] = some q :=
    Option.isSome_iff_exists.mp (by decide)
  have hord : ∀ r ∈ [Request.coinsert coportA], Ordinary r := by
    intro r hr
    rw [List.mem_singleton.mp hr]
    exact ⟨by decide, fun _ => by decide⟩
  have hopen : Opens s rootCap 0 := by
    have hvalid : s.validNamespaceCap rootCap = some true :=
      eq_of_map_runLog (fun s _ => s.validNamespaceCap rootCap) hrun (by decide)
    exact ⟨hvalid, by decide, by decide, rfl⟩
  obtain ⟨hselect, -, -⟩ := nsd_objects_refine_map hrun hord
  obtain ⟨reply, hreply, hiff, hcap⟩ := hselect coportA 0 hopen (by decide) (by decide)
  have hd : log.foldl Directory.record (listing freshTables) 0 (nsName (asciiBytes ['a'])) =
      some ⟨6, .coport, clientHandle⟩ :=
    eq_of_map_runLog (fun _ log => log.foldl Directory.record (listing freshTables) 0
      (nsName (asciiBytes ['a']))) hrun (by decide)
  cases reply with
  | err error => exact absurd (hiff.mpr ⟨_, hd, rfl⟩) (by simp [Reply.isOk])
  | ok cap =>
    obtain ⟨e, he, htarget, -⟩ := hcap cap rfl
    obtain rfl : e = ⟨6, .coport, clientHandle⟩ := Option.some.inj (he.symm.trans hd)
    exact ⟨s, log, cap, hrun, hreply, htarget⟩

end Comsg.Proofs.Nsd
