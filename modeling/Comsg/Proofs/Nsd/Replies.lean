import Comsg.Proofs.Nsd.Capacity

/-!
# `Comsg.Proofs.Nsd.Replies`: what nsd's answers say

`coinsert` and `cocreate` test their arguments twice, in the validator and in the functions that
make the entry. The second test is the stricter one. It answers with `NULL`, and the handlers
return it with status 0. So an answer is true unless the arguments pass the first test and fail the
second (`replies_truthful_iff`).
-/

set_option autoImplicit false

namespace Comsg.Proofs.Nsd

open Comsg.Lib
open Comsg.Nsd
open Comsg.Nsd.Tables (nsPtr nsobjPtr)

/-- The answer to a `coinsert` is true. With status 0 the namespace has one more object, with the
name, the type and the handle of the request, and the capability is to that object. With an error
nothing has changed. -/
def InsertTruthful (c : Counted) (args : ObjectArgs) (c' : Counted) : Reply → Prop
  | .ok cap => ∃ p o, args.nsCap.target = some (.ns p) ∧ c'.tables = addObject c.tables p o ∧
      nsName o.name = nsName args.nsobjName ∧ o.type = args.nsobjType ∧
      o.obj = insertedHandle args ∧ cap.tag = true ∧
      cap.target = some (.nsobj c.tables.nsobjects.length)
  | .err _ => c' = c

/-- The capability is to a child of the namespace that the request designates, and the child has
the name and the type of the request. -/
def NamesChild (s : Tables) (args : SpaceArgs) (cap : NsCap) : Prop :=
  ∃ p space i n, args.nsCap.target = some (.ns p) ∧ s.namespaces[p]? = some space ∧
    i ∈ space.namespaces ∧ s.namespaces[i]? = some n ∧ nsName n.name = nsName args.nsName ∧
    n.type = args.nsType ∧ cap.tag = true ∧ cap.target = some (.ns i)

/-- The answer to a `cocreate` is true. With status 0 the capability is to a child of the parent
with the name and the type of the request. With an error nothing has changed. -/
def CreateTruthful (c : Counted) (args : SpaceArgs) (c' : Counted) : Reply → Prop
  | .ok cap => NamesChild c'.tables args cap
  | .err _ => c' = c

/-- The answer to the request, if there is one, is true. -/
def Truthful (c : Counted) : Request → Prop
  | .coinsert args => ∀ c' reply, c.handle (.coinsert args) = .ok (c', reply) →
    InsertTruthful c args c' reply
  | .cocreate args => ∀ c' reply, c.handle (.cocreate args) = .ok (c', reply) →
    CreateTruthful c args c' reply
  | _ => True

/-- The request passes its validator, and then fails the test in `new_nsobject` or
`new_namespace`: a `coinsert` of the type 3, or a `cocreate` of a type that is none, or of an
application or a library that is not below the root. -/
def Misreports (s : Tables) : Request → Prop
  | .coinsert args =>
    s.validateCoinsertArgs args = some true ∧ Meets args.nsCap.perms nsPermWr ∧
      s.inNamespace args.nsobjName args.nsCap = some false ∧ args.nsobjType.toInt = 3
  | .cocreate args =>
    s.validateCocreateArgs args = some true ∧ Meets args.nsCap.perms nsPermWr ∧
      s.lookupNamespace args.nsName args.nsCap = some .null ∧
      (validNsType args.nsType = false ∨
        ((args.nsType = .application ∨ args.nsType = .library) ∧
          args.nsCap.target ≠ some (.ns 0)))
  | _ => False

section Insert
variable {c c' : Counted} {s : Tables} {args : ObjectArgs} {reply : Reply}

/-- The validator of `coinsert` lets one type pass that is none. -/
theorem type_three (hvalid : s.validateCoinsertArgs args = some true)
    (htype : validNsobjType args.nsobjType = false) : args.nsobjType.toInt = 3 := by
  obtain ⟨c, -, h⟩ := Option.bind_eq_some_iff.mp hvalid
  obtain ⟨valid, -, h⟩ := Option.bind_eq_some_iff.mp h
  split at h
  · cases h
  · split at h
    · split at h
      · cases h
      · split at h
        · cases h
        · -- The test is on a range of values, and 3 lies between `COPORT` and `COSERVICE`.
          rename_i hrange
          cases hty : args.nsobjType with
          | other v hv =>
            simp only [hty, NsobjectType.toInt, lastNsobjType, not_or] at hrange ⊢
            simp only [List.mem_cons, List.not_mem_nil, or_false, not_or] at hv
            omega
          | invalidNsobj => simp [hty, NsobjectType.toInt] at hrange
          | _ => simp [hty, validNsobjType] at htype
    · simp only [Option.some.injEq, decide_eq_true_eq] at h
      simp [h, validNsobjType] at htype

theorem validNamespaceCap_of_coinsert (h : s.validateCoinsertArgs args = some true) :
    s.validNamespaceCap args.nsCap = some true := by
  obtain ⟨c, -, h⟩ := Option.bind_eq_some_iff.mp h
  obtain ⟨valid, hvalid, h⟩ := Option.bind_eq_some_iff.mp h
  cases valid with
  | false => simp at h
  | true => exact hvalid

/-- A `coinsert` of the type 3 is answered with status 0 and `NULL`. -/
theorem insert_misreports (hs : Sound c) (h : Misreports c.tables (.coinsert args)) :
    c.handle (.coinsert args) = .ok (c, .ok .null) := by
  obtain ⟨hvalid, hwr, hin, hthree⟩ := h
  have htype : validNsobjType args.nsobjType = false := by
    cases hty : args.nsobjType with
    | invalidNsobj | other => rfl
    | _ => simp [hty, NsobjectType.toInt] at hthree
  have hparams : c.tables.validateNsobjcreateParams args.nsobjName args.nsobjType args.nsCap =
      some false := by
    simp [Tables.validateNsobjcreateParams, validNamespaceCap_of_coinsert hvalid, htype]
  cases hty : args.nsobjType with
  | invalidNsobj => simp [hty, NsobjectType.toInt] at hthree
  | other v hv =>
    rw [hty] at hparams
    simp [Counted.handle, Counted.validated, hvalid, Counted.namespaceObjectInsert, hwr,
      counted_inNamespace hs, hin, Counted.newNsobject, counted_validateNsobjcreateParams hs,
      hparams, hty]
  | _ => simp [hty, validNsobjType] at htype

theorem insertTruthful_of_effect (hs : Sound c)
    (he : CountedEffect c (.coinsert args) (.ok (c', reply)))
    (hno : ¬Misreports c.tables (.coinsert args)) : InsertTruthful c args c' reply := by
  have heffect := handle_effect (sound_effect hs he).2
  generalize htables : c'.tables = s' at heffect
  cases heffect with
  | refused _ error =>
    cases he with
    | kept => rfl
    | other _ _ _ _ _ hkind => exact absurd rfl (hkind args ⟨.null, [], .root⟩).1
  | inserted _ p space cap hwr hopen hname htype hobjects hspaces hcap =>
    have htag : cap.tag = true := by
      rw [hcap, insertedCap]
      split <;> rfl
    exact ⟨p, insertedObject args, (openNs_target hopen).1, htables, by simp [insertedObject], rfl,
      rfl, htag, by rw [hcap, insertedCap_target]⟩
  | insertedNothing _ p space hwr hopen htype hobjects hspaces hvalid =>
    -- Status 0 without an object: the request is one of those that are left out.
    have habsent : c.tables.inNamespace args.nsobjName args.nsCap = some false := by
      simp only [Tables.inNamespace, hopen, Option.bind_eq_bind, Option.bind_some,
        Option.some.injEq, Bool.or_eq_false_iff, List.any_eq_false]
      exact ⟨fun i hi => by simp [hobjects i hi], fun i hi => by simp [hspaces i hi]⟩
    exact absurd ⟨hvalid, hwr, habsent, type_three hvalid htype⟩ hno

end Insert

section Create
variable {c c' : Counted} {s s' : Tables} {args : SpaceArgs} {reply : Reply} {cap : NsCap}

/-- What nsd seals is still to the same entry. -/
theorem sealNs_eq {ns : NsCap} {i : Nat} {n : Namespace} (hns : s.ns ns = some (i, n))
    (htype : validNsType n.type = true) (h : s.sealNs ns = some cap) :
    cap.tag = ns.tag ∧ cap.target = ns.target := by
  simp only [Tables.sealNs, hns, Option.bind_eq_bind, Option.bind_some] at h
  split at h
  · rename_i hinvalid
    simp [hinvalid, validNsType] at htype
  · obtain ⟨ot, -, rfl⟩ := Option.map_eq_some_iff.mp h
    exact ⟨rfl, rfl⟩

/-- What `validate_cocreate_args` has checked. -/
theorem validateCocreateArgs_true (h : s.validateCocreateArgs args = some true) :
    s.validNamespaceCap args.nsCap = some true ∧ args.nsType ≠ .root ∧
      validNsName args.nsName = true := by
  obtain ⟨valid, hvalid, h⟩ := Option.bind_eq_some_iff.mp h
  cases valid with
  | false => simp at h
  | true =>
    simp only [Bool.true_eq_false, if_false] at h
    split at h
    · cases h
    · rename_i hkind
      exact ⟨hvalid, fun hroot => hkind (.inl hroot), by simpa using h⟩

/-- Where `validate_nscreate_params` refuses what `validate_cocreate_args` has accepted. -/
theorem validateNscreateParams_eq {p : Nat} {space : Namespace} (ht : TreeOk s)
    (hvalid : s.validateCocreateArgs args = some true) (hwr : Meets args.nsCap.perms nsPermWr)
    (hopen : s.openNs args.nsCap = some (p, space)) :
    s.validateNscreateParams args.nsCap args.nsType args.nsName = some false ↔
      validNsType args.nsType = false ∨
        ((args.nsType = .application ∨ args.nsType = .library) ∧
          args.nsCap.target ≠ some (.ns 0)) := by
  obtain ⟨hcap, hroot, hname⟩ := validateCocreateArgs_true hvalid
  obtain ⟨htarget, hp⟩ := openNs_target hopen
  have htype := (ht.space p space hp).root
  simp only [Tables.validateNscreateParams, hname, hcap, hwr, hopen, htarget, Option.bind_eq_bind,
    Option.bind_some]
  cases hty : args.nsType <;> simp_all [validNsType]

/-- `new_namespace` behind its test returns a capability to the new child. -/
theorem newNamespace_namesChild {p : Nat} {space : Namespace}
    (hopen : s.openNs args.nsCap = some (p, space))
    (hparams : s.validateNscreateParams args.nsCap args.nsType args.nsName = some true)
    (h : s.newNamespace args.nsName args.nsType args.nsCap = some (s', cap)) :
    NamesChild s' args cap := by
  obtain ⟨htarget, hp⟩ := openNs_target hopen
  obtain ⟨htype, -, -⟩ := validateNscreateParams_true hopen hparams
  simp only [Tables.newNamespace, hparams, Option.bind_eq_bind, Option.bind_some,
    Bool.true_eq_false, if_false] at h
  obtain ⟨unsealed, -, h⟩ := Option.bind_eq_some_iff.mp h
  obtain ⟨parent, -, h⟩ := Option.bind_eq_some_iff.mp h
  obtain ⟨⟨t, i⟩, halloc, h⟩ := Option.bind_eq_some_iff.mp h
  obtain ⟨sealed, hseal, h⟩ := Option.bind_eq_some_iff.mp h
  cases h
  simp only [Tables.allocateNamespace] at halloc
  split at halloc
  · cases halloc
  · simp only [hopen, Option.bind_eq_bind, Option.bind_some, Option.some.injEq,
      Prod.mk.injEq] at halloc
    obtain ⟨hs', rfl⟩ := halloc
    have hadd : t = addNamespace s p ⟨strncpy nsNameLen args.nsName, args.nsType, parent, [], []⟩ :=
      hs'.symm
    have hlast : t.namespaces[s.namespaces.length]? =
        some ⟨strncpy nsNameLen args.nsName, args.nsType, parent, [], []⟩ := by
      rw [hadd]
      exact addNamespace_namespaces.mpr (.inl ⟨rfl, rfl⟩)
    have hparent : t.namespaces[p]? =
        some { space with namespaces := s.namespaces.length :: space.namespaces } := by
      rw [hadd]
      exact addNamespace_namespaces.mpr (.inr ⟨space, hp, by rw [if_pos rfl]⟩)
    have hload : Meets (dataPerms &&& nsPermsOwnMask) permLoad := by decide
    have hns := ns_nsPtr_andperm hload hlast
    obtain ⟨htag, hcap⟩ := sealNs_eq hns htype hseal
    exact ⟨p, _, _, _, htarget, hparent, List.mem_cons_self, hlast, by simp, rfl, htag, hcap⟩

/-- A child that `cocreate` finds is the one that was asked for. -/
theorem found_namesChild {p i : Nat} {space : Namespace} (hok : TablesOk s) (ht : TreeOk s)
    (hopen : s.openNs args.nsCap = some (p, space))
    (hfind : space.namespaces.find? (s.namespaceNamed args.nsName) = some i)
    (hwr : Meets args.nsCap.perms nsPermWr)
    (hlookup : s.lookupNamespace args.nsName args.nsCap = some (nsPtr i))
    (h : s.namespaceCreate args = some (s', .ok cap)) : NamesChild s' args cap := by
  obtain ⟨htarget, hp⟩ := openNs_target hopen
  have hmem : i ∈ space.namespaces := List.mem_of_find?_eq_some hfind
  obtain ⟨n, hn, hname⟩ := namespaceNamed_iff.mp (List.find?_some hfind)
  have hread : s.ns (nsPtr i) = some (i, n) :=
    ns_eq_some.mpr ⟨Cap.load_eq_some.mpr
      ⟨rfl, rfl, show Meets dataPerms permLoad by decide, rfl⟩, hn⟩
  have hptr : (nsPtr i).target ≠ none := by simp [nsPtr]
  obtain rfl : s' = s := namespaceCreate_found hwr hlookup hptr h
  -- The checks on the child that was found, in the order of `namespace_create`.
  simp only [Tables.namespaceCreate, hwr, not_true_eq_false, if_false, hlookup, if_pos hptr, hread,
    Option.bind_eq_bind, Option.bind_some] at h
  split at h
  · cases h
  · split at h
    · cases h
    · rename_i htype
      split at h
      · cases h
      · obtain ⟨type, -, h⟩ := Option.bind_eq_some_iff.mp h
        split at h
        · cases h
        · obtain ⟨sealed, hseal, h⟩ := Option.bind_eq_some_iff.mp h
          cases h
          have hload : Meets (dataPerms &&& nsPermsWrMask) permLoad := by decide
          have hns := ns_nsPtr_andperm hload hn
          obtain ⟨htag, hcap⟩ := sealNs_eq hns (ht.space i n hn).type hseal
          exact ⟨p, space, i, n, htarget, hp, hmem, hn, hname, by simpa using htype, htag, hcap⟩

/-- Status 0 of `cocreate`: the second test has failed, or there is a child. -/
theorem create_ok (hok : TablesOk s) (ht : TreeOk s)
    (hvalid : s.validateCocreateArgs args = some true)
    (h : s.namespaceCreate args = some (s', .ok cap)) :
    Misreports s (.cocreate args) ∨ NamesChild s' args cap := by
  have hwr : Meets args.nsCap.perms nsPermWr := by
    by_contra hwr
    simp [Tables.namespaceCreate, hwr] at h
  cases hlookup : s.lookupNamespace args.nsName args.nsCap with
  | none => simp [Tables.namespaceCreate, hwr, hlookup] at h
  | some child =>
    obtain ⟨⟨p, space⟩, hopen, hchild⟩ := Option.bind_eq_some_iff.mp hlookup
    simp only at hchild
    split at hchild
    · -- No child has that name. `NULL` from `new_namespace` is not told from a capability.
      cases hchild
      simp only [Tables.namespaceCreate, hwr, not_true_eq_false, if_false, hlookup, Cap.null, ne_eq,
        Option.bind_eq_bind, Option.bind_some] at h
      obtain ⟨⟨t, childCap⟩, hnew, h⟩ := Option.bind_eq_some_iff.mp h
      cases h
      cases hparams : s.validateNscreateParams args.nsCap args.nsType args.nsName with
      | none => simp [Tables.newNamespace, hparams] at hnew
      | some valid =>
        cases valid with
        | false =>
          have hbad := (validateNscreateParams_eq ht hvalid hwr hopen).mp hparams
          exact .inl ⟨hvalid, hwr, hlookup, hbad⟩
        | true => exact .inr (newNamespace_namesChild hopen hparams hnew)
    · rename_i i hfind
      cases hchild
      exact .inr (found_namesChild hok ht hopen hfind hwr hlookup h)

/-- A `cocreate` that fails the second test is answered with status 0 and `NULL`. -/
theorem create_misreports (hs : Sound c) (ht : TreeOk c.tables)
    (h : Misreports c.tables (.cocreate args)) :
    c.handle (.cocreate args) = .ok (c, .ok .null) := by
  obtain ⟨hvalid, hwr, hlookup, hbad⟩ := h
  obtain ⟨⟨p, space⟩, hopen, -⟩ := Option.bind_eq_some_iff.mp hlookup
  have hparams := (validateNscreateParams_eq ht hvalid hwr hopen).mpr hbad
  simp [Counted.handle, Counted.validated, hvalid, Counted.namespaceCreate, hwr,
    counted_lookupNamespace hs, hlookup, Cap.null, Counted.newNamespace, hparams]

theorem createTruthful_of_effect (hs : Sound c) (hok : TablesOk c.tables) (ht : TreeOk c.tables)
    (he : CountedEffect c (.cocreate args) (.ok (c', reply)))
    (hno : ¬Misreports c.tables (.cocreate args)) : CreateTruthful c args c' reply := by
  have hhandle := (sound_effect hs he).2
  cases reply with
  | err error =>
    cases he with
    | kept => rfl
    | other _ _ _ _ _ hkind =>
      exact absurd rfl (hkind ⟨.null, [], .null, .commap, .null⟩ args).2
  | ok cap =>
    rcases validated_cases hhandle with ⟨-, hreply⟩ | ⟨hvalid, hcreate⟩
    · cases hreply
    · rcases create_ok hok ht hvalid hcreate with hbad | hchild
      · exact absurd hbad hno
      · exact hchild

end Create

/-! ### Runs -/

section Runs
variable {maxNamespaces maxNsobjects : Nat} {c : Counted}
  {handles : List UInt8 → Option { handle : NsCap // handle.tag = true }}

/-- In every state that nsd reaches, the answer to a request is true if and only if the request
does not fail the second test only. -/
theorem replies_truthful_iff
    (h : Reach Counted.step anyAct (initCounted maxNamespaces maxNsobjects handles) c)
    (r : Request) :
    Truthful c r ↔ ¬Misreports c.tables r := by
  obtain ⟨hsound, htables⟩ := sound_reach h
  have hok := tablesOk_reach htables
  have ht := treeOk_reach htables
  have he := counted_effect hsound ht r
  cases r with
  | coinsert args =>
    constructor
    · intro htrue hbad
      obtain ⟨p, o, -, -, -, -, -, htag, -⟩ := htrue c _ (insert_misreports hsound hbad)
      cases htag
    · intro hno c' reply hhandle
      exact insertTruthful_of_effect hsound (hhandle ▸ he) hno
  | cocreate args =>
    constructor
    · intro htrue hbad
      obtain ⟨p, space, i, n, -, -, -, -, -, -, htag, -⟩ :=
        htrue c _ (create_misreports hsound ht hbad)
      cases htag
    · intro hno c' reply hhandle
      exact createTruthful_of_effect hsound hok ht (hhandle ▸ he) hno
  | _ => simp [Truthful, Misreports]

end Runs

/-- The answer to a `coinsert` of the coport `a` is true. -/
theorem replies_truthful_iff_coport : Truthful smallCounted (.coinsert coportA) := by
  have hno : ¬Misreports smallCounted.tables (.coinsert coportA) := by
    rintro ⟨-, -, -, hthree⟩
    cases hthree
  have hreach : Reach Counted.step anyAct (initCounted 1024 2048 fun _ => none) smallCounted :=
    .init
  exact (replies_truthful_iff hreach _).mpr hno

/-- An object of the type 3 with the name `a`. -/
def typeThreeA : ObjectArgs := { coportA with nsobjType := .other 3 (by decide) }

/-- 0 is not a value of `ns_type_t`. -/
theorem zero_not_mem_nsType : (0 : Int) ∉ [-1, 1, 2, 4, 8, 16] := by decide

/-- A namespace of the type 0 with the name `b`. -/
def typeZeroB : SpaceArgs := { spaceB with nsType := .other 0 zero_not_mem_nsType }

/-- A fresh nsd answers both with status 0 and `NULL`, and has made nothing. -/
theorem null_with_status_zero :
    (smallCounted.handle (.coinsert typeThreeA)).toOption.map Prod.snd = some (.ok .null) ∧
      ¬Truthful smallCounted (.coinsert typeThreeA) ∧
      (smallCounted.handle (.cocreate typeZeroB)).toOption.map Prod.snd = some (.ok .null) ∧
      ¬Truthful smallCounted (.cocreate typeZeroB) := by
  have hinsert : smallCounted.handle (.coinsert typeThreeA) = .ok (smallCounted, .ok .null) :=
    insert_misreports sound_init ⟨by decide, by decide, by decide, rfl⟩
  have htree : TreeOk (initTables 1024 2048 fun _ => none) := treeOk_init
  have hcreate : smallCounted.handle (.cocreate typeZeroB) = .ok (smallCounted, .ok .null) :=
    create_misreports sound_init htree ⟨by decide, by decide, by decide, .inl rfl⟩
  refine ⟨by rw [hinsert]; rfl, fun htrue => ?_, by rw [hcreate]; rfl, fun htrue => ?_⟩
  · obtain ⟨p, o, -, -, -, -, -, htag, -⟩ := htrue _ _ hinsert
    cases htag
  · obtain ⟨p, space, i, n, -, -, -, -, -, -, htag, -⟩ := htrue _ _ hcreate
    cases htag

end Comsg.Proofs.Nsd
