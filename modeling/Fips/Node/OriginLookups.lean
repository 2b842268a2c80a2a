import Fips.Node.SessionManager

/-!
# `node/OriginLookupRegistry.ts`: lookups this node has originated

A lookup is an object on a heap; `byTarget` and `byRequest` hold its handle. A retry draws a new request id and
keeps the earlier ones. `random` are the byte strings the random source would return, one per attempt.
-/

namespace Fips
open Exec LittleEndian

structure PendingOriginLookup where
  requestId : Nat
  targetHex : NodeAddr
  targetPubkey : Option Bytes
  minMtu : Nat
  nextHop : Option NodeAddr
  promise : PromiseState
  requestIds : List Nat
deriving DecidableEq

/-- The handle of a lookup. -/
abbrev LookupId := Nat

structure OriginLookupRegistry where
  maximum : Nat
  objs : List PendingOriginLookup
  byTarget : JsMap NodeAddr LookupId
  byRequest : JsMap Nat LookupId
deriving DecidableEq

namespace OriginLookupRegistry

def new (maximum : Nat) : OriginLookupRegistry := ⟨maximum, [], [], []⟩

def get (targetHex : NodeAddr) (g : OriginLookupRegistry) : Option LookupId := g.byTarget.get targetHex

def findRequest (requestId : Nat) (g : OriginLookupRegistry) : Option LookupId := g.byRequest.get requestId

/-- `get(pending.targetHex) === pending`. -/
def isPending (lid : LookupId) (g : OriginLookupRegistry) : Bool :=
  (g.objs[lid]?).any fun pending => g.get pending.targetHex = some lid

/-- The first id that is not in use, of at most eight. -/
def nextRequestId (random : List Bytes) (g : OriginLookupRegistry) : Except String Nat :=
  attempt (random.take 8)
where
  attempt : List Bytes → Except String Nat
    | [] => .error "failed to allocate unique lookup request id"
    | bytes :: rest =>
      if bytes.length ≠ 8 then .error "random source returned invalid lookup request id"
      else if (g.byRequest.get (leNat bytes)).isNone then .ok (leNat bytes)
      else attempt rest

def create (targetHex : NodeAddr) (targetPubkey : Option Bytes) (minMtu : Nat) (random : List Bytes)
    (g : OriginLookupRegistry) : Except String (LookupId × OriginLookupRegistry) := do
  if g.byTarget.length ≥ g.maximum then throw s!"lookup capacity exceeded for {toHex targetHex}"
  let requestId ← g.nextRequestId random
  return (g.objs.length, { g with
    objs := g.objs ++ [⟨requestId, targetHex, targetPubkey, minMtu, none, .pending, [requestId]⟩]
    byTarget := g.byTarget.set targetHex g.objs.length
    byRequest := g.byRequest.set requestId g.objs.length })

/-- The new request id of a retry. -/
def renew (lid : LookupId) (random : List Bytes) (g : OriginLookupRegistry) : Except String OriginLookupRegistry := do
  let requestId ← g.nextRequestId random
  return { g with
    objs := g.objs.modify lid fun pending =>
      { pending with requestId, requestIds := pending.requestIds ++ [requestId] }
    byRequest := g.byRequest.set requestId lid }

/-- `remove`, and the settling of the promise by its caller. -/
def settle (lid : LookupId) (nextHop : Option NodeAddr) (outcome : PromiseState) (g : OriginLookupRegistry) :
    OriginLookupRegistry :=
  match g.objs[lid]? with
  | none => g
  | some pending =>
    if g.get pending.targetHex = some lid then { g with
      objs := g.objs.set lid { pending with nextHop, promise := outcome, requestIds := [] }
      byTarget := g.byTarget.delete pending.targetHex
      byRequest := pending.requestIds.foldl (fun m requestId => m.delete requestId) g.byRequest }
    else g

def complete (lid : LookupId) (nextHop : Option NodeAddr) (g : OriginLookupRegistry) : OriginLookupRegistry :=
  g.settle lid nextHop .resolved

def fail (lid : LookupId) (error : String) (g : OriginLookupRegistry) : OriginLookupRegistry :=
  g.settle lid none (.rejected error)

def stop (g : OriginLookupRegistry) : OriginLookupRegistry :=
  (g.byTarget.map Prod.snd).foldl (fun g lid => g.fail lid "FIPS node stopped") g

end OriginLookupRegistry

end Fips
