import Comsg.Nsd.Clients
import Comsg.Proofs.Nsd.Tree

/-!
# `Comsg.Proofs.Nsd.Codrop`: no namespace is ever dropped

The client call `codrop(ns, parent)` stores `parent` in `ns_cap` and `ns` in `child_ns_cap`, which
nsd does not read. nsd takes the capability it gets for the namespace to drop, and looks for it
among its own children. No namespace is a child of itself, so the call never succeeds, and it
changes nothing (`codrop_never_drops`).
-/

set_option autoImplicit false

namespace Comsg.Proofs.Nsd

open Comsg.Lib
open Comsg.Nsd

/-- `codrop(ns, parent)` succeeds and drops namespace `i`. It is in no list any more, its name is
not found in the parent, and every other namespace stays where it is. -/
def DropsChild (s : Tables) (i : Nat) (ns parent : NsCap) : Prop :=
  ∃ s' cap, s.codrop ns parent = some (s', .ok cap) ∧ i ∉ children s' ∧
    (∀ n, s.namespaces[i]? = some n → s'.lookupNamespace n.name parent = some .null) ∧
    ∀ (q j : Nat) (space : Namespace), j ≠ i → s.namespaces[q]? = some space →
      j ∈ space.namespaces → ∃ space', s'.namespaces[q]? = some space' ∧ j ∈ space'.namespaces

section
variable {maxNamespaces maxNsobjects : Nat} {s s' : Tables} {reply : Reply}
  {handles : List UInt8 → Option { handle : NsCap // handle.tag = true }}

/-- An answered `codrop` is refused, and leaves the tables as they were. -/
theorem codrop_refused {args : SpaceArgs} (hok : TablesOk s)
    (h : s.handle (.codrop args) = some (s', reply)) : s' = s ∧ ∃ error, reply = .err error := by
  cases handle_effect h with
  | refused _ error => exact ⟨rfl, error, rfl⟩
  | dropped _ i space hopen hmem =>
    -- A child is a later entry than its parent.
    exact absurd (hok.child i space i (openNs_target hopen).2 hmem).1 (Nat.lt_irrefl i)

/-- The client call `codrop` drops no namespace, in whatever state nsd is. -/
theorem codrop_never_drops
    (h : Reach Tables.step anyAct (initTables maxNamespaces maxNsobjects handles) s) (i : Nat)
    (ns parent : NsCap) :
    ¬DropsChild s i ns parent ∧
    ∀ s' reply, s.codrop ns parent = some (s', reply) → s' = s ∧ ∃ error, reply = .err error := by
  have hrefused : ∀ s' reply, s.codrop ns parent = some (s', reply) →
      s' = s ∧ ∃ error, reply = .err error :=
    fun s' reply hdrop => codrop_refused (tablesOk_reach h) hdrop
  refine ⟨?_, hrefused⟩
  rintro ⟨s', cap, hdrop, -⟩
  obtain ⟨-, error, hreply⟩ := hrefused s' _ hdrop
  cases hreply

end

/-- The owner's capability to the public namespace `b`. -/
def capB : NsCap := ((Tables.nsPtr 1).andperm nsPermsOwnMask).sealWith .publicNscap

/-- A private namespace `c` in `b`. -/
def spaceC : SpaceArgs := ⟨capB, asciiBytes ['c'], .private_⟩

/-- The owner's capability to `c`. -/
def capC : NsCap := ((Tables.nsPtr 2).andperm nsPermsOwnMask).sealWith .privateNscap

theorem codrop_never_drops_nested :
    ∃ s, runFrom Tables.step freshTables [.cocreate spaceB, .cocreate spaceC] = some s ∧
      (s.codrop capC capB).isSome = true ∧ ¬DropsChild s 2 capC capB := by
  obtain ⟨s, hs, hreach⟩ := exists_reach_of_isSome Tables.step
    [.cocreate spaceB, .cocreate spaceC] freshTables (by decide)
  have hanswers : (s.codrop capC capB).isSome = true :=
    eq_of_map_runFrom (fun s => (s.codrop capC capB).isSome) hs (by decide)
  exact ⟨s, hs, hanswers, (codrop_never_drops hreach 2 capC capB).1⟩

/-- Namespace 2 is a child of namespace 1. The owner of both calls `codrop` on it, and is told that
there is no such namespace. -/
theorem codrop_of_child_fails :
    ∃ s, runFrom Tables.step freshTables [.cocreate spaceB, .cocreate spaceC] = some s ∧
      s.namespaces.map Namespace.namespaces = [[1], [2], []] ∧
      (s.codrop capC capB).map Prod.snd = some (.err .enoent) ∧ ¬DropsChild s 2 capC capB := by
  obtain ⟨s, hs, -⟩ := exists_reach_of_isSome Tables.step
    [.cocreate spaceB, .cocreate spaceC] freshTables (by decide)
  have hreply : (s.codrop capC capB).map Prod.snd = some (.err .enoent) :=
    eq_of_map_runFrom (fun s => (s.codrop capC capB).map Prod.snd) hs (by decide)
  refine ⟨s, hs, eq_of_map_runFrom (fun s => s.namespaces.map Namespace.namespaces) hs (by decide),
    hreply, ?_⟩
  rintro ⟨s', cap, hdrop, -⟩
  simp [hdrop] at hreply

end Comsg.Proofs.Nsd
