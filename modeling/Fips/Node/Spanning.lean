import Fips.Node.TreeState
import Fips.Lib.Run
import Fips.Lib.Versions

/-!
# The parent is a function of the latest announcements

`preferred` is the first candidate in the order `Precedes`, if its root is below the node's own address. A
settled state has its parent and coordinates from there, so two histories that leave the same latest
announcements leave the same parent and coordinates. `TreeState.Inv` is the invariant of every run.
-/

namespace Fips
open Exec

/-! ### The order of the candidates -/

namespace PeerTreeState

/-- By root, then depth, then key. -/
def Precedes (a b : NodeAddr × PeerTreeState) : Prop :=
  a.2.root < b.2.root ∨ a.2.root = b.2.root ∧
    (a.2.ancestry.length < b.2.ancestry.length ∨ a.2.ancestry.length = b.2.ancestry.length ∧ a.1 ≤ b.1)

namespace Precedes
variable {a b c : NodeAddr × PeerTreeState}

theorem trans (hab : Precedes a b) (hbc : Precedes b c) : Precedes a c := by
  rcases hab with hab | ⟨hab, hab'⟩
  · rcases hbc with hbc | ⟨hbc, -⟩
    · exact .inl (List.lt_trans hab hbc)
    · exact .inl (hbc ▸ hab)
  · rcases hbc with hbc | ⟨hbc, hbc'⟩
    · exact .inl (hab ▸ hbc)
    · refine .inr ⟨hab.trans hbc, ?_⟩
      rcases hab' with hab' | ⟨hab', hk⟩
      · rcases hbc' with hbc' | ⟨hbc', -⟩ <;> exact .inl (by omega)
      · rcases hbc' with hbc' | ⟨hbc', hk'⟩
        · exact .inl (by omega)
        · exact .inr ⟨hab'.trans hbc', Std.le_trans hk hk'⟩

theorem total (a b : NodeAddr × PeerTreeState) : Precedes a b ∨ Precedes b a := by
  rcases Std.lt_trichotomy a.2.root b.2.root with h | h | h
  · exact .inl (.inl h)
  · rcases Nat.lt_trichotomy a.2.ancestry.length b.2.ancestry.length with hl | hl | hl
    · exact .inl (.inr ⟨h, .inl hl⟩)
    · rcases Std.le_total (a := a.1) (b := b.1) with hk | hk
      · exact .inl (.inr ⟨h, .inr ⟨hl, hk⟩⟩)
      · exact .inr (.inr ⟨h.symm, .inr ⟨hl.symm, hk⟩⟩)
    · exact .inr (.inr ⟨h.symm, .inl hl⟩)
  · exact .inr (.inl h)

/-- Keys are unique, so the least candidate is. -/
theorem antisymm (hab : Precedes a b) (hba : Precedes b a) : a.1 = b.1 := by
  rcases hab with hab | ⟨hr, hab⟩
  · rcases hba with hba | ⟨hr, -⟩
    · exact absurd (List.lt_trans hab hba) (List.lt_irrefl _)
    · rw [hr] at hab
      exact absurd hab (List.lt_irrefl _)
  · rcases hba with hba | ⟨-, hba⟩
    · rw [hr] at hba
      exact absurd hba (List.lt_irrefl _)
    · rcases hab with hab | ⟨hl, hk⟩
      · rcases hba with hba | ⟨hl, -⟩ <;> omega
      · rcases hba with hba | ⟨-, hk'⟩
        · omega
        · exact Std.le_antisymm hk hk'

theorem root_le (hab : Precedes a b) : a.2.root ≤ b.2.root := by
  rcases hab with hab | ⟨hr, -⟩
  · exact Std.le_of_lt hab
  · rw [hr]
    exact List.le_refl _

end Precedes

theorem candidateOrder_iff {a b : NodeAddr × PeerTreeState} : candidateOrder a b = true ↔ Precedes a b := by
  unfold candidateOrder Precedes
  by_cases hr : a.2.root = b.2.root
  · by_cases hl : a.2.ancestry.length = b.2.ancestry.length
    · simp [hr, hl, List.lt_irrefl]
    · simp [hr, hl, List.lt_irrefl]
  · simp [hr]

/-- The head of the sorted list precedes every element. -/
theorem sorted_head {l : List (NodeAddr × PeerTreeState)} {a : NodeAddr × PeerTreeState}
    (h : (l.mergeSort candidateOrder).head? = some a) : a ∈ l ∧ ∀ b ∈ l, Precedes a b := by
  have hmem : a ∈ l.mergeSort candidateOrder := List.mem_of_mem_head? h
  refine ⟨(List.mergeSort_perm l candidateOrder).mem_iff.1 hmem, ?_⟩
  intro b hb
  have hb' : b ∈ l.mergeSort candidateOrder := (List.mergeSort_perm l candidateOrder).mem_iff.2 hb
  have hsorted : (l.mergeSort candidateOrder).Pairwise fun a b => candidateOrder a b = true := by
    apply List.pairwise_mergeSort
    · intro a b c hab hbc
      exact candidateOrder_iff.2 ((candidateOrder_iff.1 hab).trans (candidateOrder_iff.1 hbc))
    · intro a b
      rcases Precedes.total a b with h | h
      · rw [candidateOrder_iff.2 h, Bool.true_or]
      · rw [candidateOrder_iff.2 h, Bool.or_true]
  obtain ⟨tail, htail⟩ := List.head?_eq_some_iff.1 h
  rw [htail] at hb' hsorted
  rcases List.mem_cons.1 hb' with rfl | hb'
  · rcases Precedes.total b b with h | h <;> exact h
  · exact candidateOrder_iff.1 (List.rel_of_pairwise_cons hsorted hb')

end PeerTreeState
open PeerTreeState

/-! ### Validated ancestries -/

theorem compareNodeAddr_lt {a b : NodeAddr} {o : Ordering} (h : compareNodeAddr a b = .ok o) :
    (o = .lt ↔ a < b) ∧ a.length = 16 ∧ b.length = 16 := by
  unfold compareNodeAddr at h
  split at h
  · cases h
  · rename_i hlen
    rw [not_or, not_not, not_not] at hlen
    cases h
    refine ⟨?_, hlen⟩
    unfold compareOfLessAndEq
    by_cases hlt : a < b
    · simp [hlt]
    · by_cases heq : a = b <;> simp [hlt, heq]

theorem checkRootMinimum_ok {root : NodeAddr} {entries : List TreeCoordEntry} :
    checkRootMinimum root entries = .ok () ↔
      ∀ a ∈ addrs entries, a.length = 16 ∧ root.length = 16 ∧ root ≤ a := by
  induction entries with
  | nil => simp [checkRootMinimum, addrs, pure, Except.pure]
  | cons entry rest ih =>
    have hcons : addrs (entry :: rest) = entry.nodeAddr :: addrs rest := rfl
    rw [checkRootMinimum, hcons, List.forall_mem_cons, ← ih]
    constructor
    · intro h
      obtain ⟨o, ho, h⟩ := Exec.except_bind_eq_ok.1 h
      obtain ⟨hlt, hlen, hlen'⟩ := compareNodeAddr_lt ho
      split at h
      · cases h
      · rename_i hne
        exact ⟨⟨hlen, hlen', List.not_lt.1 fun hl => hne (hlt.2 hl)⟩, h⟩
    · rintro ⟨⟨hlen, hlen', hle⟩, h⟩
      have ho : compareNodeAddr entry.nodeAddr root = .ok (compareOfLessAndEq entry.nodeAddr root) := by
        rw [compareNodeAddr, if_neg (by rw [hlen, hlen']; simp)]
      rw [ho]
      have hne : ¬compareOfLessAndEq entry.nodeAddr root = .lt :=
        fun hl => List.not_lt.2 hle ((compareNodeAddr_lt ho).1.1 hl)
      show (if compareOfLessAndEq entry.nodeAddr root = .lt then _ else _) = _
      rw [if_neg hne]
      exact h

/-- The last address of an ancestry. -/
def rootOf (ancestry : List TreeCoordEntry) : NodeAddr := (addrs ancestry).getLast?.getD []

/-- What `validateTreeAnnounceSemantics` checks. -/
structure TreeAnnounce.Semantics (announce : TreeAnnounce) : Prop where
  nonempty : announce.ancestry ≠ []
  root : (addrs announce.ancestry).head? = some announce.parent → announce.ancestry.length = 1
  parent : (addrs announce.ancestry).head? ≠ some announce.parent →
    (addrs announce.ancestry)[1]?.getD [] = announce.parent
  minimum : ∀ a ∈ addrs announce.ancestry, a.length = 16 ∧ rootOf announce.ancestry ≤ a

theorem validateTreeAnnounceSemantics_ok {announce : TreeAnnounce} :
    validateTreeAnnounceSemantics announce = .ok () ↔ announce.Semantics := by
  obtain ⟨sequence, timestamp, parent, ancestry, signature⟩ := announce
  cases ancestry with
  | nil =>
    refine ⟨fun h => ?_, fun h => absurd rfl h.nonempty⟩
    cases h
  | cons first rest =>
    have hroot : rootOf (first :: rest) = ((addrs rest).getLast?).getD first.nodeAddr := by
      show ((first.nodeAddr :: addrs rest).getLast?).getD [] = _
      rw [List.getLast?_cons]
      rfl
    have hmem : rootOf (first :: rest) ∈ addrs (first :: rest) := by
      rw [hroot]
      show _ ∈ first.nodeAddr :: addrs rest
      cases h : (addrs rest).getLast? with
      | none => exact List.mem_cons_self
      | some a => exact List.mem_cons_of_mem _ (List.mem_of_getLast? h)
    have hmin : checkRootMinimum (((addrs rest).getLast?).getD first.nodeAddr) (first :: rest) = .ok () ↔
        ∀ a ∈ addrs (first :: rest), a.length = 16 ∧ rootOf (first :: rest) ≤ a := by
      rw [checkRootMinimum_ok, ← hroot]
      refine ⟨fun h a ha => ⟨(h a ha).1, (h a ha).2.2⟩, fun h a ha => ⟨(h a ha).1, (h _ hmem).1, (h a ha).2⟩⟩
    have hhead : (addrs (first :: rest)).head? = some parent ↔ first.nodeAddr = parent := by
      show some first.nodeAddr = some parent ↔ _
      exact Option.some_inj
    have hsecond : (addrs (first :: rest))[1]? = (addrs rest).head? := by
      show (first.nodeAddr :: addrs rest)[1]? = _
      rw [List.getElem?_cons_succ, List.head?_eq_getElem?]
    simp only [validateTreeAnnounceSemantics]
    by_cases hp : first.nodeAddr = parent
    · by_cases hr : rest = []
      · rw [if_neg (by simp [hr]), if_neg (by simp [hp])]
        refine Iff.trans hmin ⟨fun h => ⟨by simp, fun _ => by simp [hr], fun h' => absurd (hhead.2 hp) h', h⟩,
          fun h => h.minimum⟩
      · rw [if_pos ⟨hp, hr⟩]
        refine ⟨fun h => (by cases h), fun h => ?_⟩
        have hlen := h.root (hhead.2 hp)
        exact absurd (List.length_eq_zero_iff.1 (by simpa using hlen)) hr
    · rw [if_neg (fun h => hp h.1)]
      by_cases hs : (addrs rest).head?.getD [] = parent
      · rw [if_neg (fun h => h.2 hs)]
        refine Iff.trans hmin ⟨fun h => ⟨by simp, fun h' => absurd (hhead.1 h') hp, fun _ => ?_, h⟩, fun h => h.minimum⟩
        show (addrs (first :: rest))[1]?.getD [] = parent
        rw [hsecond, hs]
      · rw [if_pos ⟨hp, hs⟩]
        refine ⟨fun h => (by cases h), fun h => ?_⟩
        have hsec : (addrs (first :: rest))[1]?.getD [] = parent := h.parent (fun h' => hp (hhead.1 h'))
        rw [hsecond] at hsec
        exact absurd hsec hs

/-! ### The invariant -/

/-- An announcement starts with the peer it came from, and its root is its least address. -/
structure PeerTreeState.Sound (key : NodeAddr) (p : PeerTreeState) : Prop where
  head : (addrs p.ancestry).head? = some key
  length : ∀ a ∈ addrs p.ancestry, a.length = 16
  root_le : ∀ a ∈ addrs p.ancestry, p.root ≤ a

/-- What an announcement leaves in the map. -/
def TreeAnnounce.stored (announce : TreeAnnounce) : PeerTreeState :=
  ⟨announce.sequence, announce.parent, announce.ancestry⟩

theorem TreeAnnounce.Semantics.sound {announce : TreeAnnounce} (h : announce.Semantics) {key : NodeAddr}
    (hk : (addrs announce.ancestry).head? = some key) : announce.stored.Sound key :=
  ⟨hk, fun a ha => (h.minimum a ha).1, fun a ha => (h.minimum a ha).2⟩

namespace TreeState
variable {t t' : TreeState} {nowSeconds : Nat}

/-- The candidate chosen as parent. -/
def preferred (t : TreeState) : Option (NodeAddr × PeerTreeState) :=
  ((t.candidates.mergeSort candidateOrder).head?).filter fun best => ¬t.identity.nodeAddr ≤ best.2.root

theorem choose_of_none (h : t.preferred = none) : t.choose = (t.identity.nodeAddr, [t.selfEntry]) := by
  unfold preferred at h
  unfold choose
  split
  · rfl
  · rename_i best hbest
    rw [hbest, Option.filter_some] at h
    split at h
    · cases h
    · rename_i hle
      rw [if_pos (by simpa using hle)]

theorem choose_of_some {best : NodeAddr × PeerTreeState} (h : t.preferred = some best) :
    t.choose = ((addrs best.2.ancestry).headD [], t.selfEntry :: best.2.ancestry) := by
  obtain ⟨hhead, hle⟩ := Option.filter_eq_some_iff.1 h
  unfold choose
  rw [hhead]
  exact if_neg (by simpa using hle)

theorem mem_candidates {e : NodeAddr × PeerTreeState} :
    e ∈ t.candidates ↔ e ∈ t.peers ∧ t.identity.nodeAddr ∉ addrs e.2.ancestry := by
  rw [candidates, List.mem_filter, decide_eq_true_iff]

theorem preferred_some {best : NodeAddr × PeerTreeState} (h : t.preferred = some best) :
    best ∈ t.candidates ∧ (∀ e ∈ t.candidates, Precedes best e) ∧ best.2.root < t.identity.nodeAddr := by
  obtain ⟨hhead, hle⟩ := Option.filter_eq_some_iff.1 h
  obtain ⟨hmem, hleast⟩ := sorted_head hhead
  exact ⟨hmem, hleast, List.not_le.1 (by simpa using hle)⟩

/-- Without a preferred candidate no candidate has a root below self. -/
theorem preferred_none (h : t.preferred = none) :
    ∀ e ∈ t.candidates, t.identity.nodeAddr ≤ e.2.root := by
  intro e he
  cases hhead : (t.candidates.mergeSort candidateOrder).head? with
  | none =>
    have hnil := List.head?_eq_none_iff.1 hhead
    rw [← (List.mergeSort_perm t.candidates candidateOrder).mem_iff, hnil] at he
    cases he
  | some best =>
    have hle : t.identity.nodeAddr ≤ best.2.root := by
      rw [preferred, hhead, Option.filter_some] at h
      split at h
      · cases h
      · rename_i hle
        simpa using hle
    exact Std.le_trans hle ((sorted_head hhead).2 e he).root_le

/-- The first candidate below self is preferred. -/
theorem preferred_eq (hnd : t.peers.Nodup) {best : NodeAddr × PeerTreeState} (hmem : best ∈ t.candidates)
    (hleast : ∀ e ∈ t.candidates, Precedes best e) (hroot : best.2.root < t.identity.nodeAddr) :
    t.preferred = some best := by
  cases h : t.preferred with
  | none => exact absurd (preferred_none h best hmem) (List.not_le.2 hroot)
  | some other =>
    obtain ⟨hmem', hleast', -⟩ := preferred_some h
    have hkey : other.1 = best.1 := (hleast' best hmem).antisymm (hleast other hmem')
    have h1 := hnd.get_of_mem (mem_candidates.1 hmem).1
    have h2 := hnd.get_of_mem (mem_candidates.1 hmem').1
    rw [hkey, h1] at h2
    exact congrArg some (Prod.ext hkey (Option.some_inj.1 h2).symm)

/-- The coordinates a settled state has. -/
def preferredCoords (t : TreeState) : List NodeAddr :=
  t.identity.nodeAddr :: (t.preferred.map fun best => addrs best.2.ancestry).getD []

def preferredParent (t : TreeState) : NodeAddr :=
  (t.preferred.map fun best => (addrs best.2.ancestry).headD []).getD t.identity.nodeAddr

theorem choose_eq : t.choose.1 = t.preferredParent ∧ addrs t.choose.2 = t.preferredCoords := by
  unfold preferredParent preferredCoords
  cases h : t.preferred with
  | none => rw [choose_of_none h]; exact ⟨rfl, rfl⟩
  | some best => rw [choose_of_some h]; exact ⟨rfl, rfl⟩

/-- The parent, the sequence and the entries that an announcement carries. -/
structure SameAnnounce (t t' : TreeState) : Prop where
  identity : t'.identity = t.identity
  sequence : t'.sequence = t.sequence
  timestamp : t'.timestamp = t.timestamp
  parent : t'.parent = t.parent
  ancestry : t'.ancestry = t.ancestry

theorem SameAnnounce.trans {t'' : TreeState} (h : SameAnnounce t t') (h' : SameAnnounce t' t'') : SameAnnounce t t'' :=
  ⟨h'.identity.trans h.identity, h'.sequence.trans h.sequence, h'.timestamp.trans h.timestamp,
    h'.parent.trans h.parent, h'.ancestry.trans h.ancestry⟩

/-- A new version of the announcement. -/
structure NewAnnounce (t t' : TreeState) : Prop where
  identity : t'.identity = t.identity
  sequence : t'.sequence = t.sequence + 1
  head : t'.ancestry.head? = some t'.selfEntry

/-- The state after an evaluation that finds something new. -/
def advanced (nowSeconds : Nat) (t : TreeState) : TreeState where
  identity := t.identity
  sequence := t.sequence + 1
  timestamp := nowSeconds
  parent := t.choose.1
  ancestry := ⟨t.identity.nodeAddr, t.sequence + 1, nowSeconds⟩ :: t.choose.2.tail
  peers := t.peers

theorem evaluateParent_eq : t.evaluateParent nowSeconds =
    if t.parent = t.choose.1 ∧ sameCoords t.ancestry t.choose.2 then (false, t) else (true, t.advanced nowSeconds) := rfl

/-- An evaluation ends with the preferred parent and coordinates. -/
theorem evaluateParent_settles (t : TreeState) (nowSeconds : Nat) :
    (t.evaluateParent nowSeconds).2.parent = t.preferredParent ∧
      (t.evaluateParent nowSeconds).2.coords = t.preferredCoords := by
  obtain ⟨hparent, hcoords⟩ := choose_eq (t := t)
  rw [evaluateParent_eq]
  split
  · rename_i h
    have hsame : addrs t.ancestry = addrs t.choose.2 := by simpa [sameCoords] using h.2
    exact ⟨h.1.trans hparent, hsame.trans hcoords⟩
  · refine ⟨hparent, ?_⟩
    rw [← hcoords]
    show t.identity.nodeAddr :: addrs t.choose.2.tail = addrs t.choose.2
    cases hp : t.preferred with
    | none => rw [choose_of_none hp]; rfl
    | some best => rw [choose_of_some hp]; rfl

/-- The peers are not touched, and the announcement stays or gets a new version. -/
theorem evaluateParent_announce (t : TreeState) (nowSeconds : Nat) :
    (t.evaluateParent nowSeconds).2.peers = t.peers ∧
      (SameAnnounce t (t.evaluateParent nowSeconds).2 ∨
        NewAnnounce t (t.evaluateParent nowSeconds).2 ∧ (t.evaluateParent nowSeconds).2.timestamp = nowSeconds) := by
  rw [evaluateParent_eq]
  split
  · exact ⟨rfl, .inl ⟨rfl, rfl, rfl, rfl, rfl⟩⟩
  · exact ⟨rfl, .inr ⟨⟨rfl, rfl, rfl⟩, rfl⟩⟩

/-! ### Steps -/

/-- The clock an event reads. -/
def TreeEvent.clock : TreeEvent → Nat
  | .updatePeer _ _ nowSeconds => nowSeconds
  | .removePeer _ nowSeconds => nowSeconds
  | .reset nowSeconds => nowSeconds

/-- The map of peers after an event. -/
def TreeEvent.apply (peers : JsMap NodeAddr PeerTreeState) : TreeEvent → JsMap NodeAddr PeerTreeState
  | .updatePeer peerNodeAddr announce _ =>
    if (peers.get peerNodeAddr).any fun existing => announce.sequence ≤ existing.sequence then peers
    else peers.set peerNodeAddr announce.stored
  | .removePeer peerNodeAddr _ => if (peers.get peerNodeAddr).isSome then peers.delete peerNodeAddr else peers
  | .reset _ => []

/-- A step updates the map and evaluates the parent unless the map is left alone. -/
theorem step_eq (t : TreeState) (e : TreeEvent) :
    step t e = ({ t with peers := e.apply t.peers }.evaluateParent e.clock).2 ∨
      step t e = t ∧ e.apply t.peers = t.peers := by
  cases e with
  | updatePeer peerNodeAddr announce nowSeconds =>
    simp only [step, updatePeer, TreeEvent.apply, TreeEvent.clock]
    split
    · exact .inr ⟨rfl, rfl⟩
    · exact .inl rfl
  | removePeer peerNodeAddr nowSeconds =>
    simp only [step, removePeer, TreeEvent.apply, TreeEvent.clock]
    split
    · exact .inl rfl
    · exact .inr ⟨rfl, rfl⟩
  | reset nowSeconds => exact .inl rfl

theorem step_peers (t : TreeState) (e : TreeEvent) : (step t e).peers = e.apply t.peers := by
  rcases step_eq t e with h | ⟨h, hp⟩
  · rw [h, (evaluateParent_announce _ _).1]
  · rw [h, hp]

/-- A step leaves the announcement alone or makes a new one. -/
theorem step_announce (t : TreeState) (e : TreeEvent) :
    SameAnnounce t (step t e) ∨ NewAnnounce t (step t e) ∧ (step t e).timestamp = e.clock := by
  rcases step_eq t e with h | ⟨h, -⟩
  · rw [h]
    rcases (evaluateParent_announce { t with peers := e.apply t.peers } e.clock).2 with h' | ⟨h', ht⟩
    · exact .inl ⟨h'.identity, h'.sequence, h'.timestamp, h'.parent, h'.ancestry⟩
    · exact .inr ⟨⟨h'.identity, h'.sequence, h'.head⟩, ht⟩
  · rw [h]
    exact .inl ⟨rfl, rfl, rfl, rfl, rfl⟩

theorem step_identity (t : TreeState) (e : TreeEvent) : (step t e).identity = t.identity := by
  rcases step_announce t e with h | ⟨h, -⟩
  · exact h.identity
  · exact h.identity

/-- What holds of every state a run reaches. -/
structure Inv (t : TreeState) : Prop where
  nodup : t.peers.Nodup
  sound : ∀ e ∈ t.peers, e.2.Sound e.1
  parent : t.parent = t.preferredParent
  coords : t.coords = t.preferredCoords
  head : t.ancestry.head? = some t.selfEntry

theorem new_inv (identity : FipsIdentity) (nowSeconds : Nat) : (TreeState.new identity nowSeconds).Inv := by
  have hnone : (TreeState.new identity nowSeconds).preferred = none := by simp [preferred, candidates, new]
  refine ⟨List.nodup_nil, fun e he => (by cases he), ?_, ?_, rfl⟩
  · rw [preferredParent, hnone]
    rfl
  · rw [preferredCoords, hnone]
    rfl

theorem TreeEvent.apply_sound {peers : JsMap NodeAddr PeerTreeState} (h : ∀ e ∈ peers, e.2.Sound e.1) {e : TreeEvent}
    (he : e.Valid) : ∀ p ∈ e.apply peers, p.2.Sound p.1 := by
  cases e with
  | updatePeer peerNodeAddr announce nowSeconds =>
    intro p hp
    simp only [TreeEvent.apply] at hp
    split at hp
    · exact h p hp
    · rcases JsMap.mem_set hp with rfl | hp
      · exact (validateTreeAnnounceSemantics_ok.1 he.1).sound he.2
      · exact h p hp
  | removePeer peerNodeAddr nowSeconds =>
    intro p hp
    simp only [TreeEvent.apply] at hp
    split at hp
    · exact h p (JsMap.mem_delete.1 hp).1
    · exact h p hp
  | reset nowSeconds => intro p hp; cases hp

theorem TreeEvent.apply_nodup {peers : JsMap NodeAddr PeerTreeState} (h : peers.Nodup) (e : TreeEvent) :
    (e.apply peers).Nodup := by
  cases e with
  | updatePeer peerNodeAddr announce nowSeconds =>
    simp only [TreeEvent.apply]
    split
    · exact h
    · exact h.set _ _
  | removePeer peerNodeAddr nowSeconds =>
    simp only [TreeEvent.apply]
    split
    · exact h.delete _
    · exact h
  | reset nowSeconds => exact List.nodup_nil

/-- The choice depends on the identity and the peers. -/
theorem preferred_congr (hi : t'.identity.nodeAddr = t.identity.nodeAddr) (hp : t'.peers = t.peers) :
    t'.preferred = t.preferred := by
  unfold preferred candidates
  rw [hi, hp]

theorem step_inv {e : TreeEvent} (h : t.Inv) (he : e.Valid) : (step t e).Inv := by
  have hid := congrArg FipsIdentity.nodeAddr (step_identity t e)
  have hpref : (step t e).preferred = { t with peers := e.apply t.peers }.preferred :=
    preferred_congr hid (step_peers t e)
  refine ⟨?_, ?_, ?_, ?_, ?_⟩
  · rw [step_peers]
    exact TreeEvent.apply_nodup h.nodup e
  · rw [step_peers]
    exact TreeEvent.apply_sound h.sound he
  · unfold preferredParent
    rw [hpref, hid]
    rcases step_eq t e with hs | ⟨hs, hp⟩
    · rw [hs, (evaluateParent_settles _ _).1]
      rfl
    · rw [hs, hp]
      exact h.parent
  · unfold preferredCoords
    rw [hpref, hid]
    rcases step_eq t e with hs | ⟨hs, hp⟩
    · rw [hs, (evaluateParent_settles _ _).2]
      rfl
    · rw [hs, hp]
      exact h.coords
  · rcases step_announce t e with hs | ⟨hs, -⟩
    · rw [hs.ancestry, h.head]
      unfold selfEntry
      rw [hs.identity, hs.sequence, hs.timestamp]
    · exact hs.head

section
variable {es : List TreeEvent}

theorem run_inv (h : t.Inv) (hes : ∀ e ∈ es, e.Valid) : (Run.run step t es).Inv := by
  induction es generalizing t with
  | nil => exact h
  | cons e es ih =>
    rw [Run.run_cons]
    exact ih (step_inv h (hes e List.mem_cons_self)) fun e he => hes e (List.mem_cons_of_mem _ he)

theorem run_identity (t : TreeState) (es : List TreeEvent) : (Run.run step t es).identity = t.identity := by
  induction es generalizing t with
  | nil => rfl
  | cons e es ih => rw [Run.run_cons, ih, step_identity]

end

/-! ### Histories -/

/-- The announcements heard of a peer since it was last removed. -/
def heard (key : NodeAddr) (es : List TreeEvent) : List TreeAnnounce :=
  es.foldl (fun heard e =>
    match e with
    | .updatePeer peerNodeAddr announce _ => if peerNodeAddr = key then heard ++ [announce] else heard
    | .removePeer peerNodeAddr _ => if peerNodeAddr = key then [] else heard
    | .reset _ => []) []

/-- The announcement of the greatest sequence among those. -/
def latest (key : NodeAddr) (es : List TreeEvent) : Option TreeAnnounce :=
  Versions.held TreeAnnounce.sequence (heard key es)

/-- A peer whose latest announcement does not pass through self. -/
def Offers (self : NodeAddr) (es : List TreeEvent) (key : NodeAddr) (announce : TreeAnnounce) : Prop :=
  latest key es = some announce ∧ self ∉ addrs announce.ancestry

theorem heard_concat (key : NodeAddr) (es : List TreeEvent) (e : TreeEvent) :
    heard key (es ++ [e]) =
      match e with
      | .updatePeer peerNodeAddr announce _ => if peerNodeAddr = key then heard key es ++ [announce] else heard key es
      | .removePeer peerNodeAddr _ => if peerNodeAddr = key then [] else heard key es
      | .reset _ => [] := by
  unfold heard
  rw [List.foldl_append]
  rfl

theorem apply_get {peers : JsMap NodeAddr PeerTreeState} {key : NodeAddr} {es : List TreeEvent}
    (h : peers.get key = (latest key es).map TreeAnnounce.stored) (e : TreeEvent) :
    (e.apply peers).get key = (latest key (es ++ [e])).map TreeAnnounce.stored := by
  have hseq : ∀ a : TreeAnnounce, a.stored.sequence = a.sequence := fun _ => rfl
  cases e with
  | updatePeer peerNodeAddr announce nowSeconds =>
    simp only [TreeEvent.apply]
    rw [latest, heard_concat]
    by_cases hk : peerNodeAddr = key
    · subst hk
      simp only [if_true]
      rw [Versions.held_concat, Versions.accept]
      change peers.get peerNodeAddr = (Versions.held TreeAnnounce.sequence (heard peerNodeAddr es)).map _ at h
      rw [h, Option.any_map]
      simp only [hseq]
      split
      · exact h
      · rw [JsMap.get_set, if_pos rfl]
        rfl
    · simp only [if_neg hk]
      split
      · exact h
      · rw [JsMap.get_set, if_neg hk]
        exact h
  | removePeer peerNodeAddr nowSeconds =>
    simp only [TreeEvent.apply]
    rw [latest, heard_concat]
    by_cases hk : peerNodeAddr = key
    · subst hk
      simp only [if_true]
      split
      · rw [JsMap.get_delete, if_pos rfl]
        rfl
      · rename_i hnone
        rw [Bool.not_eq_true, Option.isSome_eq_false_iff, Option.isNone_iff_eq_none] at hnone
        rw [hnone]
        rfl
    · simp only [if_neg hk]
      split
      · rw [JsMap.get_delete, if_neg hk]
        exact h
      · exact h
  | reset nowSeconds =>
    rw [latest, heard_concat]
    rfl

section
variable {identity : FipsIdentity} {es : List TreeEvent} {key : NodeAddr}

theorem run_get (identity : FipsIdentity) (nowSeconds : Nat) (es : List TreeEvent) (key : NodeAddr) :
    (Run.run step (TreeState.new identity nowSeconds) es).peers.get key = (latest key es).map TreeAnnounce.stored := by
  induction es using List.reverseRecOn with
  | nil => rfl
  | append_singleton es e ih =>
    rw [Run.run_append, Run.run_cons, Run.run_nil, step_peers]
    exact apply_get ih e

theorem Inv.mem_iff (h : t.Inv) {p : PeerTreeState} : (key, p) ∈ t.peers ↔ t.peers.get key = some p :=
  ⟨h.nodup.get_of_mem, JsMap.mem_of_get⟩

/-- The candidates are the peers that offer a path. -/
theorem mem_candidates_run (hes : ∀ e ∈ es, e.Valid) {p : PeerTreeState} :
    (key, p) ∈ (Run.run step (TreeState.new identity nowSeconds) es).candidates ↔
      ∃ announce, Offers identity.nodeAddr es key announce ∧ announce.stored = p := by
  rw [mem_candidates, (run_inv (new_inv identity nowSeconds) hes).mem_iff, run_get, run_identity]
  constructor
  · rintro ⟨hget, hself⟩
    obtain ⟨announce, hlatest, rfl⟩ := Option.map_eq_some_iff.1 hget
    exact ⟨announce, ⟨hlatest, hself⟩, rfl⟩
  · rintro ⟨announce, ⟨hlatest, hself⟩, rfl⟩
    rw [hlatest]
    exact ⟨rfl, hself⟩

/-- Equal maps lead to the same choice, whatever the order of their entries. -/
theorem preferred_of_get (h : t.Inv) (h' : t'.Inv) (hi : t'.identity.nodeAddr = t.identity.nodeAddr)
    (hget : ∀ key, t'.peers.get key = t.peers.get key) : t'.preferred = t.preferred := by
  have hmem : ∀ e, e ∈ t'.candidates ↔ e ∈ t.candidates := by
    rintro ⟨key, p⟩
    rw [mem_candidates, mem_candidates, h.mem_iff, h'.mem_iff, hget, hi]
  cases hp : t.preferred with
  | none =>
    cases hp' : t'.preferred with
    | none => rfl
    | some best =>
      obtain ⟨hbest, -, hroot⟩ := preferred_some hp'
      rw [hi] at hroot
      exact absurd (preferred_none hp best ((hmem best).1 hbest)) (List.not_le.2 hroot)
  | some best =>
    obtain ⟨hbest, hleast, hroot⟩ := preferred_some hp
    rw [← hi] at hroot
    exact preferred_eq h'.nodup ((hmem best).2 hbest) (fun e he => hleast e ((hmem e).1 he)) hroot

theorem Inv.coords_of_none (h : t.Inv) (hp : t.preferred = none) : t.coords = [t.identity.nodeAddr] := by
  rw [h.coords, preferredCoords, hp]
  rfl

theorem Inv.coords_of_some (h : t.Inv) {best : NodeAddr × PeerTreeState} (hp : t.preferred = some best) :
    t.coords = t.identity.nodeAddr :: addrs best.2.ancestry := by
  rw [h.coords, preferredCoords, hp]
  rfl

/-- The second coordinate, or self. -/
theorem Inv.parent_eq (h : t.Inv) : t.parent = t.coords[1]?.getD t.identity.nodeAddr := by
  rw [h.parent, preferredParent]
  cases hp : t.preferred with
  | none =>
    rw [h.coords_of_none hp]
    rfl
  | some best =>
    rw [h.coords_of_some hp]
    have hhead := (h.sound best (mem_candidates.1 (preferred_some hp).1).1).head
    show (addrs best.2.ancestry).headD [] = ((_ :: addrs best.2.ancestry)[1]?).getD _
    rw [List.getElem?_cons_succ, ← List.head?_eq_getElem?, List.headD_eq_head?_getD, hhead]
    rfl

theorem Inv.count_self (h : t.Inv) : t.coords.count t.identity.nodeAddr = 1 := by
  cases hp : t.preferred with
  | none =>
    rw [h.coords_of_none hp]
    exact List.count_singleton_self
  | some best =>
    rw [h.coords_of_some hp, List.count_cons_self,
      List.count_eq_zero_of_not_mem (mem_candidates.1 (preferred_some hp).1).2]

/-- The root is the last coordinate and the least. -/
theorem Inv.root_le (h : t.Inv) : t.coords.getLast? = some t.root ∧ ∀ a ∈ t.coords, t.root ≤ a := by
  cases hp : t.preferred with
  | none =>
    rw [root, h.coords_of_none hp]
    refine ⟨rfl, fun a ha => ?_⟩
    rw [List.mem_singleton.1 ha]
    exact List.le_refl _
  | some best =>
    obtain ⟨hmem, -, hroot⟩ := preferred_some hp
    have hsound := h.sound best (mem_candidates.1 hmem).1
    have hlast : t.coords.getLast? = some best.2.root := by
      rw [h.coords_of_some hp]
      obtain ⟨tail, htail⟩ := List.head?_eq_some_iff.1 hsound.head
      rw [PeerTreeState.root, htail, List.getLast?_cons_cons, List.getLast?_cons]
      rfl
    have hroot' : t.root = best.2.root := by rw [root, hlast]; rfl
    refine ⟨by rw [hlast, hroot'], fun a ha => ?_⟩
    rw [hroot']
    rw [h.coords_of_some hp] at ha
    rcases List.mem_cons.1 ha with rfl | ha
    · exact Std.le_of_lt hroot
    · exact hsound.root_le a ha

/-- Parent and coordinates are those of the least peer that offers a path to a root below self, so they are the
same after every history that leaves the same latest announcements. -/
theorem run_eq_latest (identity : FipsIdentity) (nowSeconds : Nat) (es : List TreeEvent) (hes : ∀ e ∈ es, e.Valid)
    (t : TreeState) (ht : t = Run.run step (TreeState.new identity nowSeconds) es) :
    ((¬∃ key announce, Offers identity.nodeAddr es key announce ∧ rootOf announce.ancestry < identity.nodeAddr) →
      t.coords = [identity.nodeAddr]) ∧
    ((∃ key announce, Offers identity.nodeAddr es key announce ∧ rootOf announce.ancestry < identity.nodeAddr) →
      ∃ key announce, Offers identity.nodeAddr es key announce ∧
        (∀ key' announce', Offers identity.nodeAddr es key' announce' →
          Precedes (key, announce.stored) (key', announce'.stored)) ∧
        t.coords = identity.nodeAddr :: addrs announce.ancestry) ∧
    t.parent = t.coords[1]?.getD identity.nodeAddr ∧
    (∀ nowSeconds' es', (∀ e ∈ es', TreeEvent.Valid e) → (∀ key, latest key es' = latest key es) →
      (Run.run step (TreeState.new identity nowSeconds') es').parent = t.parent ∧
      (Run.run step (TreeState.new identity nowSeconds') es').coords = t.coords) ∧
    t.coords.count identity.nodeAddr = 1 ∧
    ∃ root, t.coords.getLast? = some root ∧ ∀ a ∈ t.coords, root ≤ a := by
  have hinv : t.Inv := ht ▸ run_inv (new_inv identity nowSeconds) hes
  have hid : t.identity = identity := ht ▸ run_identity _ es
  have hcand : ∀ {key p}, (key, p) ∈ t.candidates ↔
      ∃ announce, Offers identity.nodeAddr es key announce ∧ announce.stored = p := by
    intro key p
    rw [ht]
    exact mem_candidates_run hes
  refine ⟨?_, ?_, ?_, ?_, ?_, t.root, hinv.root_le⟩
  · intro hnone
    cases hp : t.preferred with
    | none => rw [hinv.coords_of_none hp, hid]
    | some best =>
      obtain ⟨hmem, -, hroot⟩ := preferred_some hp
      obtain ⟨announce, hoffers, hstored⟩ := hcand.1 hmem
      refine absurd ⟨best.1, announce, hoffers, ?_⟩ hnone
      rw [← hstored, hid] at hroot
      exact hroot
  · rintro ⟨key, announce, hoffers, hroot⟩
    cases hp : t.preferred with
    | none =>
      have hle := preferred_none hp (key, announce.stored) (hcand.2 ⟨announce, hoffers, rfl⟩)
      rw [hid] at hle
      exact absurd hle (List.not_le.2 hroot)
    | some best =>
      obtain ⟨hmem, hleast, -⟩ := preferred_some hp
      obtain ⟨announce', hoffers', hstored⟩ := hcand.1 hmem
      refine ⟨best.1, announce', hoffers', ?_, ?_⟩
      · intro key'' announce'' hoffers''
        rw [hstored]
        exact hleast _ (hcand.2 ⟨announce'', hoffers'', rfl⟩)
      · rw [hinv.coords_of_some hp, hid, ← hstored]
        rfl
  · rw [hinv.parent_eq, hid]
  · intro nowSeconds' es' hes' hlatest
    have hinv' := run_inv (new_inv identity nowSeconds') hes'
    have hid' := run_identity (TreeState.new identity nowSeconds') es'
    have hpref := preferred_of_get hinv hinv' (by rw [hid', hid]; rfl) (fun key => by rw [ht, run_get, run_get, hlatest])
    rw [hinv'.parent, hinv.parent, hinv'.coords, hinv.coords]
    unfold preferredParent preferredCoords
    rw [hpref, hid', hid]
    exact ⟨rfl, rfl⟩
  · rw [← hid]
    exact hinv.count_self

end

/-- A root with the given address announces itself. -/
def rootAnnounce (nodeAddr : NodeAddr) (sequence : Nat) : TreeAnnounce :=
  ⟨sequence, 0, nodeAddr, [⟨nodeAddr, sequence, 0⟩], List.replicate 64 0⟩

def smallerPeer : NodeAddr := List.replicate 16 0

/-- A smaller root is heard twice, the second time late. -/
def toyHeard : List TreeEvent :=
  [.updatePeer smallerPeer (rootAnnounce smallerPeer 4) 10, .updatePeer smallerPeer (rootAnnounce smallerPeer 3) 11]

theorem run_eq_latest_toy :
    (∃ key announce, Offers (toyIdentity 1).nodeAddr toyHeard key announce ∧
      (Run.run step (TreeState.new (toyIdentity 1) 9) toyHeard).coords =
        (toyIdentity 1).nodeAddr :: addrs announce.ancestry) := by
  have hlatest : latest smallerPeer toyHeard = some (rootAnnounce smallerPeer 4) := by decide +kernel
  have h := run_eq_latest (toyIdentity 1) 9 toyHeard
    (List.forall_mem_cons.2 ⟨⟨rfl, rfl⟩, List.forall_mem_singleton.2 ⟨rfl, rfl⟩⟩) _ rfl
  obtain ⟨key, announce, hoffers, -, hcoords⟩ := h.2.1
    ⟨smallerPeer, rootAnnounce smallerPeer 4, ⟨hlatest, by decide +kernel⟩, by decide +kernel⟩
  exact ⟨key, announce, hoffers, hcoords⟩

end TreeState

end Fips
