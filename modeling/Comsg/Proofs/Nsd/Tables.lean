import Comsg.Lib.Transition
import Comsg.Proofs.Nsd.Effect

/-!
# `Comsg.Proofs.Nsd.Tables`: the invariant of nsd's tables

Each object that a namespace lists has an entry. It is in the list of one namespace only, there
only once, and no other object of that namespace has its name (`TablesOk`). A child namespace is
newer than its parent, so no namespace is among its own children and `codrop` never finds what
it looks for. Every request keeps the invariant (`tablesOk_effect`), so it holds in every state
that nsd reaches (`tablesOk_reach`).

`Lists s p i o` is the view of the tables that the results about names use. The lemmas `lists_*`
say what each change does to it.
-/

set_option autoImplicit false

namespace Comsg.Proofs.Nsd

open Comsg.Lib
open Comsg.Nsd

/-- Object `i` has the entry `o`, and namespace `p` lists it. -/
def Lists (s : Tables) (p i : Nat) (o : Nsobject) : Prop :=
  ∃ space, s.namespaces[p]? = some space ∧ i ∈ space.objects ∧ s.nsobjects[i]? = some o

/-- The invariant of the tables. -/
structure TablesOk (s : Tables) : Prop where
  listed : ∀ (p : Nat) (space : Namespace) i, s.namespaces[p]? = some space → i ∈ space.objects →
    i < s.nsobjects.length
  nodup : ∀ (p : Nat) (space : Namespace), s.namespaces[p]? = some space → space.objects.Nodup
  one_space : ∀ p q i o, Lists s p i o → Lists s q i o → p = q
  one_name : ∀ p i j o o', Lists s p i o → Lists s p j o' → nsName o.name = nsName o'.name → i = j
  child : ∀ (p : Nat) (space : Namespace) i, s.namespaces[p]? = some space → i ∈ space.namespaces →
    p < i ∧ i < s.namespaces.length

section Names
variable {s : Tables} {p q i j : Nat} {o o' : Nsobject} {name : List UInt8}

theorem objectNamed_iff : s.objectNamed name i = true ↔
    ∃ o, s.nsobjects[i]? = some o ∧ nsName o.name = nsName name := by
  unfold Tables.objectNamed
  cases s.nsobjects[i]? with
  | none => simp
  | some o => simp [strncmpEq_iff]

theorem namespaceNamed_iff : s.namespaceNamed name i = true ↔
    ∃ n, s.namespaces[i]? = some n ∧ nsName n.name = nsName name := by
  unfold Tables.namespaceNamed
  cases s.namespaces[i]? with
  | none => simp
  | some n => simp [strncmpEq_iff]

/-! ### How the changes read -/

theorem addObject_namespaces {space : Namespace} :
    (addObject s p o).namespaces[q]? = some space ↔ ∃ old, s.namespaces[q]? = some old ∧
      space = if p = q then { old with objects := s.nsobjects.length :: old.objects } else old := by
  simp only [addObject, List.getElem?_modify, Option.map_eq_map, Option.map_eq_some_iff]
  constructor
  · rintro ⟨old, hold, rfl⟩
    exact ⟨old, hold, rfl⟩
  · rintro ⟨old, hold, rfl⟩
    exact ⟨old, hold, rfl⟩

theorem addObject_nsobjects : (addObject s p o).nsobjects[i]? =
    if i = s.nsobjects.length then some o else s.nsobjects[i]? := by
  simp only [addObject]
  by_cases hi : i = s.nsobjects.length
  · simp [hi]
  · rw [if_neg hi, List.getElem?_append]
    split
    · rfl
    · rename_i hlt
      rw [List.getElem?_eq_none (by simp; omega), List.getElem?_eq_none (by omega)]

theorem removeObject_namespaces {space : Namespace} :
    (removeObject s p j).namespaces[q]? = some space ↔ ∃ old, s.namespaces[q]? = some old ∧
      space = if p = q then { old with objects := old.objects.erase j } else old := by
  simp only [removeObject, List.getElem?_modify, Option.map_eq_map, Option.map_eq_some_iff]
  constructor
  · rintro ⟨old, hold, rfl⟩
    exact ⟨old, hold, rfl⟩
  · rintro ⟨old, hold, rfl⟩
    exact ⟨old, hold, rfl⟩

theorem removeObject_nsobjects (h : i ≠ j) :
    (removeObject s p j).nsobjects[i]? = s.nsobjects[i]? :=
  List.getElem?_modify_ne _ _ (Ne.symm h)

theorem fillObject_nsobjects {type : NsobjectType} {obj : NsCap} :
    (fillObject s j type obj).nsobjects[i]? =
      s.nsobjects[i]?.map fun o => if j = i then { o with type := type, obj := obj } else o := by
  simp only [fillObject, List.getElem?_modify, Option.map_eq_map]

theorem addNamespace_namespaces {n space : Namespace} :
    (addNamespace s p n).namespaces[q]? = some space ↔
      (q = s.namespaces.length ∧ space = n) ∨ ∃ old, s.namespaces[q]? = some old ∧
        space = if p = q then { old with namespaces := s.namespaces.length :: old.namespaces }
          else old := by
  simp only [addNamespace]
  by_cases hq : q = s.namespaces.length
  · subst hq
    simp [eq_comm]
  · rw [List.getElem?_append]
    split
    · simp only [List.getElem?_modify, Option.map_eq_map, Option.map_eq_some_iff, hq, false_and,
        false_or]
      constructor
      · rintro ⟨old, hold, rfl⟩
        exact ⟨old, hold, rfl⟩
      · rintro ⟨old, hold, rfl⟩
        exact ⟨old, hold, rfl⟩
    · rename_i hlt
      have hnone : s.namespaces[q]? = none :=
        List.getElem?_eq_none (by simpa using hlt)
      rw [List.getElem?_eq_none (by simp at hlt ⊢; omega)]
      simp [hq, hnone]

/-! ### The objects that are listed -/

theorem lists_addObject {space : Namespace} (h : TablesOk s) (hp : s.namespaces[p]? = some space) :
    Lists (addObject s p o') q i o ↔
      Lists s q i o ∨ (q = p ∧ i = s.nsobjects.length ∧ o = o') := by
  simp only [Lists, addObject_namespaces, addObject_nsobjects]
  constructor
  · rintro ⟨_, ⟨old, hold, rfl⟩, hi, ho⟩
    by_cases hi' : i = s.nsobjects.length
    · rw [if_pos hi', Option.some.injEq] at ho
      by_cases hpq : p = q
      · exact .inr ⟨hpq.symm, hi', ho.symm⟩
      · -- The index is new, so no other namespace has it.
        rw [if_neg hpq] at hi
        have := h.listed q old i hold hi
        omega
    · rw [if_neg hi'] at ho
      refine .inl ⟨old, hold, ?_, ho⟩
      split at hi
      · simpa [hi'] using hi
      · exact hi
  · rintro (⟨old, hold, hi, ho⟩ | ⟨rfl, rfl, rfl⟩)
    · have hlt := h.listed q old i hold hi
      refine ⟨_, ⟨old, hold, rfl⟩, ?_, by rw [if_neg (by omega)]; exact ho⟩
      split
      · exact List.mem_cons_of_mem _ hi
      · exact hi
    · exact ⟨_, ⟨space, hp, rfl⟩, by simp, by simp⟩

theorem lists_removeObject {space : Namespace} (h : TablesOk s)
    (hp : s.namespaces[p]? = some space) (hj : j ∈ space.objects) :
    Lists (removeObject s p j) q i o ↔ Lists s q i o ∧ i ≠ j := by
  have hlt := h.listed p space j hp hj
  have hjp : Lists s p j s.nsobjects[j] := ⟨space, hp, hj, List.getElem?_eq_getElem hlt⟩
  -- Only namespace `p` has the object, and only once.
  have hgone : ∀ {old : Namespace}, s.namespaces[q]? = some old →
      j ∉ (if p = q then { old with objects := old.objects.erase j } else old).objects := by
    intro old hold hmem
    split at hmem
    · exact (h.nodup q old hold).not_mem_erase hmem
    · rename_i hpq
      exact hpq (h.one_space p q j _ hjp ⟨old, hold, hmem, List.getElem?_eq_getElem hlt⟩)
  simp only [Lists, removeObject_namespaces]
  constructor
  · rintro ⟨_, ⟨old, hold, rfl⟩, hi, ho⟩
    have hij : i ≠ j := by
      rintro rfl
      exact hgone hold hi
    rw [removeObject_nsobjects hij] at ho
    refine ⟨⟨old, hold, ?_, ho⟩, hij⟩
    split at hi
    · exact List.mem_of_mem_erase hi
    · exact hi
  · rintro ⟨⟨old, hold, hi, ho⟩, hij⟩
    refine ⟨_, ⟨old, hold, rfl⟩, ?_, by rw [removeObject_nsobjects hij]; exact ho⟩
    split
    · exact (List.mem_erase_of_ne hij).mpr hi
    · exact hi

theorem lists_fillObject {type : NsobjectType} {obj : NsCap} :
    Lists (fillObject s j type obj) q i o ↔ ∃ old, Lists s q i old ∧
      o = if j = i then { old with type := type, obj := obj } else old := by
  simp only [Lists, fillObject_nsobjects, Option.map_eq_some_iff]
  constructor
  · rintro ⟨space, hspace, hi, old, hold, rfl⟩
    exact ⟨old, ⟨space, hspace, hi, hold⟩, rfl⟩
  · rintro ⟨old, ⟨space, hspace, hi, hold⟩, rfl⟩
    exact ⟨space, hspace, hi, old, hold, rfl⟩

theorem lists_addNamespace {n : Namespace} (hn : n.objects = []) :
    Lists (addNamespace s p n) q i o ↔ Lists s q i o := by
  simp only [Lists, addNamespace_namespaces]
  constructor
  · rintro ⟨_, ⟨-, rfl⟩ | ⟨old, hold, rfl⟩, hi, ho⟩
    · simp [hn] at hi
    · refine ⟨old, hold, ?_, ho⟩
      split at hi <;> exact hi
  · rintro ⟨old, hold, hi, ho⟩
    refine ⟨_, .inr ⟨old, hold, rfl⟩, ?_, ho⟩
    split <;> exact hi

end Names

/-! ### The invariant is kept -/

section Keeps
variable {s s' : Tables} {p i : Nat} {space : Namespace}

theorem tablesOk_addObject {o : Nsobject} (h : TablesOk s) (hp : s.namespaces[p]? = some space)
    (hnew : ∀ j o', Lists s p j o' → nsName o'.name ≠ nsName o.name) :
    TablesOk (addObject s p o) where
  listed q _ j hq hj := by
    obtain ⟨old, hold, rfl⟩ := addObject_namespaces.mp hq
    have hlen : (addObject s p o).nsobjects.length = s.nsobjects.length + 1 := by simp [addObject]
    split at hj
    · rcases List.mem_cons.mp hj with rfl | hj
      · omega
      · have := h.listed q old j hold hj
        omega
    · have := h.listed q old j hold hj
      omega
  nodup q _ hq := by
    obtain ⟨old, hold, rfl⟩ := addObject_namespaces.mp hq
    split
    · refine List.nodup_cons.mpr ⟨fun hmem => ?_, h.nodup q old hold⟩
      exact absurd (h.listed q old _ hold hmem) (Nat.lt_irrefl _)
    · exact h.nodup q old hold
  one_space q q' j o' hq hq' := by
    have hfresh {q j : Nat} {o' : Nsobject} (hl : Lists s q j o') : j ≠ s.nsobjects.length := by
      obtain ⟨old, hold, hmem, -⟩ := hl
      exact Nat.ne_of_lt (h.listed q old j hold hmem)
    rw [lists_addObject h hp] at hq hq'
    rcases hq with hq | ⟨rfl, hj, -⟩ <;> rcases hq' with hq' | ⟨rfl, hj', -⟩
    · exact h.one_space q q' j o' hq hq'
    · exact absurd hj' (hfresh hq)
    · exact absurd hj (hfresh hq')
    · rfl
  one_name q j k oj ok hj hk hname := by
    rw [lists_addObject h hp] at hj hk
    rcases hj with hj | ⟨hq, hj, rfl⟩ <;> rcases hk with hk | ⟨hq', hk, rfl⟩
    · exact h.one_name q j k oj ok hj hk hname
    · exact absurd hname (hnew j oj (hq' ▸ hj))
    · exact absurd hname.symm (hnew k ok (hq ▸ hk))
    · exact hj.trans hk.symm
  child q _ j hq hj := by
    obtain ⟨old, hold, rfl⟩ := addObject_namespaces.mp hq
    have hlen : (addObject s p o).namespaces.length = s.namespaces.length := by simp [addObject]
    rw [hlen]
    split at hj <;> exact h.child q old j hold hj

theorem tablesOk_removeObject (h : TablesOk s) (hp : s.namespaces[p]? = some space)
    (hi : i ∈ space.objects) : TablesOk (removeObject s p i) where
  listed q _ j hq hj := by
    obtain ⟨old, hold, rfl⟩ := removeObject_namespaces.mp hq
    have hlen : (removeObject s p i).nsobjects.length = s.nsobjects.length := by
      simp [removeObject]
    rw [hlen]
    split at hj
    · exact h.listed q old j hold (List.mem_of_mem_erase hj)
    · exact h.listed q old j hold hj
  nodup q _ hq := by
    obtain ⟨old, hold, rfl⟩ := removeObject_namespaces.mp hq
    split
    · exact (h.nodup q old hold).erase i
    · exact h.nodup q old hold
  one_space q q' j o hq hq' := by
    rw [lists_removeObject h hp hi] at hq hq'
    exact h.one_space q q' j o hq.1 hq'.1
  one_name q j k oj ok hj hk hname := by
    rw [lists_removeObject h hp hi] at hj hk
    exact h.one_name q j k oj ok hj.1 hk.1 hname
  child q _ j hq hj := by
    obtain ⟨old, hold, rfl⟩ := removeObject_namespaces.mp hq
    have hlen : (removeObject s p i).namespaces.length = s.namespaces.length := by
      simp [removeObject]
    rw [hlen]
    split at hj <;> exact h.child q old j hold hj

theorem tablesOk_fillObject {type : NsobjectType} {obj : NsCap} (h : TablesOk s) :
    TablesOk (fillObject s i type obj) where
  listed q old j hq hj := by
    have hlen : (fillObject s i type obj).nsobjects.length = s.nsobjects.length := by
      simp [fillObject]
    rw [hlen]
    exact h.listed q old j hq hj
  nodup q old hq := h.nodup q old hq
  one_space q q' j o hq hq' := by
    obtain ⟨old, hq, -⟩ := lists_fillObject.mp hq
    obtain ⟨old', hq', -⟩ := lists_fillObject.mp hq'
    obtain rfl : old = old' := by
      obtain ⟨-, -, -, ho⟩ := hq
      obtain ⟨-, -, -, ho'⟩ := hq'
      exact Option.some.inj (ho.symm.trans ho')
    exact h.one_space q q' j old hq hq'
  one_name q j k oj ok hj hk hname := by
    obtain ⟨old, hold, rfl⟩ := lists_fillObject.mp hj
    obtain ⟨old', hold', rfl⟩ := lists_fillObject.mp hk
    refine h.one_name q j k old old' hold hold' ?_
    split at hname <;> split at hname <;> exact hname
  child q old j hq hj := h.child q old j hq hj

theorem tablesOk_addNamespace {n : Namespace} (h : TablesOk s) (hn : n.objects = [])
    (hn' : n.namespaces = []) :
    TablesOk (addNamespace s p n) where
  listed q _ j hq hj := by
    rcases addNamespace_namespaces.mp hq with ⟨-, rfl⟩ | ⟨old, hold, rfl⟩
    · simp [hn] at hj
    · split at hj <;> exact h.listed q old j hold hj
  nodup q _ hq := by
    rcases addNamespace_namespaces.mp hq with ⟨-, rfl⟩ | ⟨old, hold, rfl⟩
    · simp [hn]
    · split <;> exact h.nodup q old hold
  one_space q q' j o hq hq' := by
    rw [lists_addNamespace hn] at hq hq'
    exact h.one_space q q' j o hq hq'
  one_name q j k oj ok hj hk hname := by
    rw [lists_addNamespace hn] at hj hk
    exact h.one_name q j k oj ok hj hk hname
  child q _ j hq hj := by
    have hlen : (addNamespace s p n).namespaces.length = s.namespaces.length + 1 := by
      simp [addNamespace]
    rcases addNamespace_namespaces.mp hq with ⟨-, rfl⟩ | ⟨old, hold, rfl⟩
    · simp [hn'] at hj
    · have hq' : q < s.namespaces.length := (List.getElem?_eq_some_iff.mp hold).1
      split at hj
      · rcases List.mem_cons.mp hj with rfl | hj
        · omega
        · have := h.child q old j hold hj
          omega
      · have := h.child q old j hold hj
        omega

/-- A request keeps the invariant. -/
theorem tablesOk_effect {r : Request} {reply : Reply} (h : TablesOk s)
    (he : Effect s r s' reply) : TablesOk s' := by
  cases he with
  | inserted args p space cap hwr hopen hname htype hobjects hspaces hcap =>
    obtain ⟨-, hp⟩ := openNs_target hopen
    refine tablesOk_addObject h hp fun j o ⟨old, hold, hj, ho⟩ heq => ?_
    rw [hp, Option.some.injEq] at hold
    have hnamed : s.objectNamed args.nsobjName j = true :=
      objectNamed_iff.mpr ⟨o, ho, by simpa [insertedObject] using heq⟩
    simp [hobjects j (hold ▸ hj)] at hnamed
  | deleted args p i space o hopen ho hcap hmem =>
    exact tablesOk_removeObject h (openNs_target hopen).2 hmem
  | updated args i o cap hcap ho hreserved htype => exact tablesOk_fillObject h
  | created args p space parent cap hwr hvalid hopen hspaces =>
    exact tablesOk_addNamespace h rfl rfl
  | dropped args i space hopen hmem =>
    -- A namespace is never among its own children.
    exact absurd (h.child i space i (openNs_target hopen).2 hmem).1 (Nat.lt_irrefl i)
  | _ => exact h

end Keeps

/-! ### Runs -/

section Runs
variable {maxNamespaces maxNsobjects : Nat} {s : Tables}
  {handles : List UInt8 → Option { handle : NsCap // handle.tag = true }}

/-- The names of nsd's services are distinct. -/
theorem nodup_serviceNames : (serviceNames.map nsName).Nodup := by
  decide

/-- An object of the fresh tables is a service, under its name. -/
theorem lists_init {p i : Nat} {o : Nsobject}
    (h : Lists (initTables maxNamespaces maxNsobjects handles) p i o) :
    p = 0 ∧ ∃ name, serviceNames[i]? = some name ∧ nsName o.name = nsName name ∧
      ((o.type = .reservation ∧ o.obj = .null) ∨ (o.type = .coservice ∧ o.obj.tag = true)) := by
  obtain ⟨space, hp, -, ho⟩ := h
  have hp0 : p = 0 := by
    have hlt := (List.getElem?_eq_some_iff.mp hp).1
    simp [initTables] at hlt
    exact hlt
  refine ⟨hp0, ?_⟩
  simp only [initTables, List.getElem?_map, Option.map_eq_some_iff] at ho
  obtain ⟨name, hname, rfl⟩ := ho
  refine ⟨name, hname, ?_⟩
  cases handles name with
  | none => exact ⟨cstr_strncpy _ _, .inl ⟨rfl, rfl⟩⟩
  | some handle => exact ⟨cstr_strncpy _ _, .inr ⟨rfl, handle.2⟩⟩

theorem tablesOk_init : TablesOk (initTables maxNamespaces maxNsobjects handles) where
  listed p space i hp hi := by
    have hlt := (List.getElem?_eq_some_iff.mp hp).1
    obtain rfl : p = 0 := by simpa [initTables] using hlt
    simp only [initTables, List.getElem?_cons_zero, Option.some.injEq] at hp
    subst hp
    simpa [initTables] using hi
  nodup p space hp := by
    have hlt := (List.getElem?_eq_some_iff.mp hp).1
    obtain rfl : p = 0 := by simpa [initTables] using hlt
    simp only [initTables, List.getElem?_cons_zero, Option.some.injEq] at hp
    subst hp
    exact List.nodup_reverse.mpr List.nodup_range
  one_space p q i o hp hq := (lists_init hp).1.trans (lists_init hq).1.symm
  one_name p i j o o' hi hj heq := by
    obtain ⟨-, name, hname, hsame, -⟩ := lists_init hi
    obtain ⟨-, name', hname', hsame', -⟩ := lists_init hj
    have hlt : i < (serviceNames.map nsName).length := by
      simpa using (List.getElem?_eq_some_iff.mp hname).1
    refine (List.getElem?_inj hlt nodup_serviceNames).mp ?_
    simp [hname, hname', ← hsame, ← hsame', heq]
  child p space i hp hi := by
    have hlt := (List.getElem?_eq_some_iff.mp hp).1
    obtain rfl : p = 0 := by simpa [initTables] using hlt
    simp only [initTables, List.getElem?_cons_zero, Option.some.injEq] at hp
    subst hp
    simp [rootNamespace] at hi

theorem tablesOk_reach {ok : Tables → Request → Prop}
    (h : Reach Tables.step ok (initTables maxNamespaces maxNsobjects handles) s) : TablesOk s := by
  induction h with
  | init => exact tablesOk_init
  | next r _ _ hs ih =>
    obtain ⟨⟨s', reply⟩, hhandle, rfl⟩ := Option.map_eq_some_iff.mp hs
    exact tablesOk_effect ih (handle_effect hhandle)

end Runs

end Comsg.Proofs.Nsd
