import Comsg.Nsd.Handlers

/-!
# `Comsg.Nsd.Authority`: a client of nsd and what its capabilities let it do

A client presents capabilities that it has made from those it holds. It can clear permissions
and narrow bounds, and it can seal and unseal with an object type that is not one of nsd's. What
it cannot do is to unseal what nsd has sealed, or to give a tag to a capability.

`contents` is the memory of nsd that a capability reaches, so that a client can also read nsd's
tables directly where it holds a capability that is not sealed. `partyStep` is one step of the
client (`ask`, `load`) or a request of somebody else (`other`).
-/

set_option autoImplicit false

namespace Comsg.Nsd

open Comsg.Lib

/-- The capability is not under one of nsd's seals. -/
def ClientOpen (c : NsCap) : Prop := c.otype = none ∨ c.otype = some .foreign

instance (c : NsCap) : Decidable (ClientOpen c) := inferInstanceAs (Decidable (_ ∨ _))

/-- The capability leads to memory that is not nsd's, or nowhere. -/
def NotOfNsd (c : NsCap) : Prop := ∀ t ∈ c.target, ∃ addr, t = .client addr

/-- What a client can make of a capability that it holds. -/
structure Derives (c d : NsCap) : Prop where
  target : d.target = c.target
  perms : d.perms &&& ~~~c.perms = 0
  length : d.length ≤ c.length
  from_open : ClientOpen c
  to_open : ClientOpen d

/-- The client can present `d`: it has no tag, or it leads to memory of the client's own, or the
client holds it or has made it from one that it holds. -/
def Presentable (held : List NsCap) (d : NsCap) : Prop :=
  d.tag = false ∨ NotOfNsd d ∨ d ∈ held ∨ ∃ c ∈ held, c.tag = true ∧ Derives c d

/-- The capabilities among the arguments of a request. -/
def Request.caps : Request → List NsCap
  | .coinsert args | .coselect args | .codelete args | .coupdate args =>
    [args.nsCap, args.nsobj, args.obj]
  | .cocreate args | .codrop args => [args.nsCap]

/-- The handle that a request asks nsd to store. -/
def Request.stored : Request → List NsCap
  | .coinsert args | .coupdate args => [args.obj]
  | _                               => []

/-- The capability in a reply. -/
def Reply.caps : Reply → List NsCap
  | .ok cap => [cap]
  | .err _  => []

/-- The capabilities in the memory of nsd that can be loaded through `c`: the handle of an object,
or the parent and the members of a namespace. -/
def Tables.contents (s : Tables) (c : NsCap) : List NsCap :=
  match c.load with
  | some (.nsobj i) => (s.nsobjects[i]?.map Nsobject.obj).toList
  | some (.ns i) =>
    match s.namespaces[i]? with
    | some n => n.parent :: (n.objects.map Tables.nsobjPtr ++ n.namespaces.map Tables.nsPtr)
    | none   => []
  | _ => []

/-- nsd, and what one of its clients holds. -/
structure Party where
  tables : Tables
  held : List NsCap

inductive PartyAct
  | ask (r : Request)
  | load (c : NsCap)
  | other (r : Request)
  deriving DecidableEq

def partyStep (σ : Party) : PartyAct → Option Party
  | .ask r   => (σ.tables.handle r).map fun p => ⟨p.1, p.2.caps ++ σ.held⟩
  | .load c  => some { σ with held := σ.tables.contents c ++ σ.held }
  | .other r => (σ.tables.step r).map fun s => { σ with tables := s }

/-- The client presents what it can present. Nobody else stores a capability to nsd's own memory
as a handle, where the client could find it. -/
def PartyOk (σ : Party) : PartyAct → Prop
  | .ask r   => ∀ c ∈ r.caps, Presentable σ.held c
  | .load c  => Presentable σ.held c
  | .other r => ∀ c ∈ r.stored, NotOfNsd c

end Comsg.Nsd
