import Fips.Protocol.Tree

/-!
# `node/TreeState.ts`: the spanning tree

A node keeps the latest announcement of each peer and takes as parent the one with the smallest root, the
shortest ancestry and the smallest key. A datagram goes to the peer that is nearest to its destination in
the tree. Ancestries that have passed `validateTreeAnnounceSemantics` are not empty and hold addresses of
16 bytes, which are compared here as byte strings.
-/

namespace Fips
open Exec

structure PeerTreeState where
  sequence : Nat
  parent : NodeAddr
  ancestry : List TreeCoordEntry
deriving DecidableEq

structure TreeState where
  identity : FipsIdentity
  sequence : Nat
  timestamp : Nat
  parent : NodeAddr
  ancestry : List TreeCoordEntry
  peers : JsMap NodeAddr PeerTreeState
deriving DecidableEq

/-- The length of the common beginning of two lists. -/
def commonLength : List NodeAddr → List NodeAddr → Nat
  | a :: as, b :: bs => if a = b then commonLength as bs + 1 else 0
  | _, _ => 0

/-- The distance of two nodes through their lowest common ancestor, or infinity if their roots differ. -/
def treeDistance (a b : List NodeAddr) : ℕ∞ :=
  if a = [] ∨ b = [] ∨ a.getLast? ≠ b.getLast? then ⊤
  else (a.length + b.length - 2 * commonLength a.reverse b.reverse : Nat)

def sameCoords (a b : List TreeCoordEntry) : Bool := addrs a = addrs b

namespace PeerTreeState

/-- The last address of the ancestry. -/
def root (p : PeerTreeState) : NodeAddr := (addrs p.ancestry).getLast?.getD []

end PeerTreeState

/-- The order of the candidates: root, depth, key. -/
def candidateOrder (a b : NodeAddr × PeerTreeState) : Bool :=
  if a.2.root ≠ b.2.root then a.2.root < b.2.root
  else if a.2.ancestry.length ≠ b.2.ancestry.length then a.2.ancestry.length < b.2.ancestry.length
  else a.1 ≤ b.1

namespace TreeState

def selfEntry (t : TreeState) : TreeCoordEntry := ⟨t.identity.nodeAddr, t.sequence, t.timestamp⟩

def new (identity : FipsIdentity) (nowSeconds : Nat) : TreeState where
  identity
  sequence := 1
  timestamp := nowSeconds
  parent := identity.nodeAddr
  ancestry := [⟨identity.nodeAddr, 1, nowSeconds⟩]
  peers := []

def coords (t : TreeState) : List NodeAddr := addrs t.ancestry

def root (t : TreeState) : NodeAddr := t.coords.getLast?.getD []

def announce (S : Suite) (G : Schnorr) (t : TreeState) : Except String TreeAnnounce :=
  buildTreeAnnounce S G t.identity t.parent t.sequence t.timestamp t.ancestry

/-- The peers through which self could be reached only by a loop are left out. -/
def candidates (t : TreeState) : List (NodeAddr × PeerTreeState) :=
  t.peers.filter fun e => t.identity.nodeAddr ∉ addrs e.2.ancestry

/-- The parent and ancestry chosen among the candidates. -/
def choose (t : TreeState) : NodeAddr × List TreeCoordEntry :=
  match (t.candidates.mergeSort candidateOrder).head? with
  | none => (t.identity.nodeAddr, [t.selfEntry])
  | some best =>
    if t.identity.nodeAddr ≤ best.2.root then (t.identity.nodeAddr, [t.selfEntry])
    else ((addrs best.2.ancestry).headD [], t.selfEntry :: best.2.ancestry)

def evaluateParent (nowSeconds : Nat) (t : TreeState) : Bool × TreeState :=
  let (parent, ancestry) := t.choose
  if t.parent = parent ∧ sameCoords t.ancestry ancestry then (false, t)
  else
    let t := { t with sequence := t.sequence + 1, timestamp := nowSeconds, parent }
    (true, { t with ancestry := t.selfEntry :: ancestry.tail })

def updatePeer (peerNodeAddr : NodeAddr) (announce : TreeAnnounce) (nowSeconds : Nat) (t : TreeState) : Bool × TreeState :=
  if (t.peers.get peerNodeAddr).any fun existing => announce.sequence ≤ existing.sequence then (false, t)
  else { t with peers := t.peers.set peerNodeAddr ⟨announce.sequence, announce.parent, announce.ancestry⟩ }.evaluateParent
    nowSeconds

def removePeer (peerNodeAddr : NodeAddr) (nowSeconds : Nat) (t : TreeState) : Bool × TreeState :=
  if (t.peers.get peerNodeAddr).isSome then
    { t with peers := t.peers.delete peerNodeAddr }.evaluateParent nowSeconds
  else (false, t)

def reset (nowSeconds : Nat) (t : TreeState) : TreeState := ({ t with peers := [] }.evaluateParent nowSeconds).2

def isTreePeer (peerNodeAddr : NodeAddr) (t : TreeState) : Bool :=
  if t.parent ≠ t.identity.nodeAddr ∧ t.parent = peerNodeAddr then true
  else (t.peers.get peerNodeAddr).any fun p => p.parent = t.identity.nodeAddr

/-- The better of the best so far and one more eligible peer. -/
def closer (t : TreeState) (destCoords : List NodeAddr) (eligible : NodeAddr → Bool) (best : Option (NodeAddr × ℕ∞))
    (e : NodeAddr × PeerTreeState) : Option (NodeAddr × ℕ∞) :=
  let distance := treeDistance (addrs e.2.ancestry) destCoords
  if !eligible e.1 ∨ distance ≥ treeDistance t.coords destCoords then best
  else
    match best with
    | none => some (e.1, distance)
    | some b => if distance < b.2 ∨ (distance = b.2 ∧ e.1 < b.1) then some (e.1, distance) else some b

def nextHop (destCoords : List NodeAddr) (eligible : NodeAddr → Bool) (t : TreeState) : Option NodeAddr :=
  if destCoords = [] ∨ destCoords.getLast? ≠ some t.root then none
  else (t.peers.foldl (t.closer destCoords eligible) none).map Prod.fst

/-! ### Runs -/

inductive TreeEvent
  | updatePeer (peerNodeAddr : NodeAddr) (announce : TreeAnnounce) (nowSeconds : Nat)
  | removePeer (peerNodeAddr : NodeAddr) (nowSeconds : Nat)
  | reset (nowSeconds : Nat)

def step (t : TreeState) : TreeEvent → TreeState
  | .updatePeer peerNodeAddr announce nowSeconds => (t.updatePeer peerNodeAddr announce nowSeconds).2
  | .removePeer peerNodeAddr nowSeconds => (t.removePeer peerNodeAddr nowSeconds).2
  | .reset nowSeconds => t.reset nowSeconds

/-- An announcement is accepted by the decoder and starts with the peer it came from. -/
def TreeEvent.Valid : TreeEvent → Prop
  | .updatePeer peerNodeAddr announce _ =>
    validateTreeAnnounceSemantics announce = .ok () ∧ (addrs announce.ancestry).head? = some peerNodeAddr
  | _ => True

end TreeState

end Fips
