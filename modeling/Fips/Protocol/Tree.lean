import Fips.Node.SessionManager
import Fips.Protocol.Link

/-!
# `protocol/tree.ts`: TreeAnnounce

A node announces its parent and its ancestry up to the root, signed under a sequence number. The Schnorr
functions come from `@noble/curves` and are the parameter `Schnorr`.
-/

namespace Fips
open LittleEndian BinaryReader Exec

def LinkMessageType.TreeAnnounce : Nat := 0x10

def TREE_ANNOUNCE_VERSION : Nat := 1
def TREE_COORD_ENTRY_SIZE : Nat := 32
def TREE_ANNOUNCE_MIN_PAYLOAD_SIZE : Nat := 99

/-- `schnorr.sign` and `schnorr.verify`. -/
structure Schnorr where
  sign : (message secretKey : Bytes) → Bytes
  verify : (signature message xOnlyPubkey : Bytes) → Bool

/-- Signatures have 64 bytes and verify under the signer's x-only key. -/
structure Schnorr.Lawful (S : Suite) (G : Schnorr) : Prop where
  sign_length : ∀ message secretKey, (G.sign message secretKey).length = 64
  verify_sign : ∀ {secretKey pub}, S.getPublicKey secretKey = .ok pub → ∀ message,
    G.verify (G.sign message secretKey) message pub.tail = true

/-- A lawful pair over the toy suite, whose public keys show the secret key. -/
def toySchnorr : Schnorr where
  sign message secretKey := leBytes 64 (Toy.checksum (secretKey ++ message))
  verify signature message xOnlyPubkey := signature = leBytes 64 (Toy.checksum (xOnlyPubkey ++ message))

theorem toySchnorr_lawful : toySchnorr.Lawful toySuite where
  sign_length message secretKey := length_leBytes _ _
  verify_sign h message := by
    obtain ⟨-, rfl⟩ := Toy.getPublicKey_eq_ok h
    simp [toySchnorr]

def signSchnorr (G : Schnorr) (identity : FipsIdentity) (message : Bytes) : Bytes := G.sign message identity.secretKey

def verifySchnorr (G : Schnorr) (signature message xOnlyPubkey : Bytes) : Bool :=
  signature.length = 64 ∧ xOnlyPubkey.length = 32 ∧ G.verify signature message xOnlyPubkey

structure TreeCoordEntry where
  nodeAddr : NodeAddr
  sequence : Nat
  timestamp : Nat
deriving DecidableEq

structure TreeAnnounce where
  sequence : Nat
  timestamp : Nat
  parent : NodeAddr
  ancestry : List TreeCoordEntry
  signature : Bytes
deriving DecidableEq

/-- The addresses of an ancestry. -/
def addrs (ancestry : List TreeCoordEntry) : List NodeAddr := ancestry.map TreeCoordEntry.nodeAddr

def treeDeclarationBytes (nodeAddr parent : NodeAddr) (sequence timestamp : Nat) : Except String Bytes := do
  let sequence ← BinaryWriter.u64le sequence
  let timestamp ← BinaryWriter.u64le timestamp
  return nodeAddr ++ parent ++ sequence ++ timestamp

def buildTreeAnnounce (S : Suite) (G : Schnorr) (identity : FipsIdentity) (parent : NodeAddr) (sequence timestamp : Nat)
    (ancestry : List TreeCoordEntry) : Except String TreeAnnounce := do
  let declaration ← treeDeclarationBytes identity.nodeAddr parent sequence timestamp
  return ⟨sequence, timestamp, parent, ancestry, signSchnorr G identity (S.sha256 declaration)⟩

/-- No entry is below the root. -/
def checkRootMinimum (root : NodeAddr) : List TreeCoordEntry → Except String Unit
  | [] => return
  | entry :: rest => do
    if (← compareNodeAddr entry.nodeAddr root) = .lt then
      throw "TreeAnnounce root is not the minimum ancestry address"
    checkRootMinimum root rest

def validateTreeAnnounceSemantics (announce : TreeAnnounce) : Except String Unit := do
  match announce.ancestry with
  | [] => throw "TreeAnnounce ancestry cannot be empty"
  | first :: rest =>
    if first.nodeAddr = announce.parent ∧ rest ≠ [] then throw "invalid root ancestry"
    if first.nodeAddr ≠ announce.parent ∧ ((addrs rest).head?.getD []) ≠ announce.parent then
      throw "TreeAnnounce parent does not match ancestry"
    checkRootMinimum (((addrs rest).getLast?).getD first.nodeAddr) announce.ancestry

def encodeEntries : List TreeCoordEntry → Except String Bytes
  | [] => return []
  | entry :: rest => do
    let sequence ← BinaryWriter.u64le entry.sequence
    let timestamp ← BinaryWriter.u64le entry.timestamp
    return entry.nodeAddr ++ sequence ++ timestamp ++ (← encodeEntries rest)

def encodeTreeAnnounce (announce : TreeAnnounce) : Except String Bytes := do
  validateTreeAnnounceSemantics announce
  if announce.signature.length ≠ 64 then throw "TreeAnnounce signature must be 64 bytes"
  let msgType ← BinaryWriter.u8 LinkMessageType.TreeAnnounce
  let version ← BinaryWriter.u8 TREE_ANNOUNCE_VERSION
  let sequence ← BinaryWriter.u64le announce.sequence
  let timestamp ← BinaryWriter.u64le announce.timestamp
  let count ← BinaryWriter.u16le announce.ancestry.length
  let entries ← encodeEntries announce.ancestry
  return msgType ++ version ++ sequence ++ timestamp ++ announce.parent ++ count ++ entries ++ announce.signature

def readEntries : Nat → Read (List TreeCoordEntry)
  | 0 => return []
  | count + 1 => do
    let entry : TreeCoordEntry := ⟨← bytes 16, ← u64le, ← u64le⟩
    return entry :: (← readEntries count)

def decodeTreeAnnounce (buf : Bytes) : Except String TreeAnnounce := do
  if buf.length < 1 + TREE_ANNOUNCE_MIN_PAYLOAD_SIZE then throw "TreeAnnounce too short"
  let announce : TreeAnnounce ← BinaryReader.run (do
    if (← u8) ≠ LinkMessageType.TreeAnnounce then throw "not a TreeAnnounce"
    if (← u8) ≠ TREE_ANNOUNCE_VERSION then throw "unsupported TreeAnnounce version"
    let sequence ← u64le
    let timestamp ← u64le
    let parent ← bytes 16
    let count ← u16le
    if count = 0 ∨ (← get).rest.length ≠ count * TREE_COORD_ENTRY_SIZE + 64 then
      throw "invalid TreeAnnounce ancestry length"
    let ancestry ← readEntries count
    return ⟨sequence, timestamp, parent, ancestry, ← bytes 64⟩) buf
  validateTreeAnnounceSemantics announce
  return announce

/-- The message type has already been read. -/
def decodeTreeAnnouncePayload (payload : Bytes) : Except String TreeAnnounce :=
  decodeTreeAnnounce (.ofNat LinkMessageType.TreeAnnounce :: payload)

/-- Signed by the key of the node the ancestry starts with. -/
def verifyTreeAnnounce (S : Suite) (G : Schnorr) (announce : TreeAnnounce) (peerPubkey : Bytes) : Except String Bool := do
  let declaration ← treeDeclarationBytes ((addrs announce.ancestry).headD []) announce.parent announce.sequence
    announce.timestamp
  return verifySchnorr G announce.signature (S.sha256 declaration) peerPubkey.tail

/-! ### The bytes of an announcement -/

/-- Fields that fit their place on the wire. -/
structure TreeCoordEntry.Wire (entry : TreeCoordEntry) : Prop where
  nodeAddr : entry.nodeAddr.length = 16
  sequence : entry.sequence < 2 ^ 64
  timestamp : entry.timestamp < 2 ^ 64

structure TreeAnnounce.Wire (announce : TreeAnnounce) : Prop where
  sequence : announce.sequence < 2 ^ 64
  timestamp : announce.timestamp < 2 ^ 64
  parent : announce.parent.length = 16
  ancestry : ∀ entry ∈ announce.ancestry, entry.Wire
  length : announce.ancestry.length < 65536
  signature : announce.signature.length = 64

def entryBytes (entry : TreeCoordEntry) : Bytes := entry.nodeAddr ++ leBytes 8 entry.sequence ++ leBytes 8 entry.timestamp

def entriesBytes : List TreeCoordEntry → Bytes
  | [] => []
  | entry :: rest => entryBytes entry ++ entriesBytes rest

def TreeAnnounce.bytes (announce : TreeAnnounce) : Bytes :=
  leBytes 1 LinkMessageType.TreeAnnounce ++ leBytes 1 TREE_ANNOUNCE_VERSION ++ leBytes 8 announce.sequence ++
    leBytes 8 announce.timestamp ++ announce.parent ++ leBytes 2 announce.ancestry.length ++
    entriesBytes announce.ancestry ++ announce.signature

section
variable {announce : TreeAnnounce} {entries : List TreeCoordEntry}

theorem length_entriesBytes (h : ∀ entry ∈ entries, entry.nodeAddr.length = 16) :
    (entriesBytes entries).length = 32 * entries.length := by
  induction entries with
  | nil => rfl
  | cons entry rest ih =>
    obtain ⟨hentry, hrest⟩ := List.forall_mem_cons.1 h
    rw [entriesBytes, List.length_append, ih hrest, entryBytes, List.length_cons]
    simp [hentry]
    omega

theorem encodeEntries_eq (h : ∀ entry ∈ entries, entry.sequence < 2 ^ 64 ∧ entry.timestamp < 2 ^ 64) :
    encodeEntries entries = .ok (entriesBytes entries) := by
  induction entries with
  | nil => rfl
  | cons entry rest ih =>
    obtain ⟨hentry, hrest⟩ := List.forall_mem_cons.1 h
    rw [encodeEntries, ih hrest, BinaryWriter.u64le, BinaryWriter.u64le, BinaryWriter.uint_of_lt hentry.1,
      BinaryWriter.uint_of_lt hentry.2]
    rfl

theorem readEntries_append {off : Nat} {rest : Bytes} (h : ∀ entry ∈ entries, entry.Wire) :
    ∃ off', readEntries entries.length ⟨off, entriesBytes entries ++ rest⟩ = .ok (entries, ⟨off', rest⟩) := by
  induction entries generalizing off with
  | nil => exact ⟨off, rfl⟩
  | cons entry tail ih =>
    obtain ⟨hentry, htail⟩ := List.forall_mem_cons.1 h
    obtain ⟨off', hoff'⟩ := @ih (off + 16 + 8 + 8) htail
    refine ⟨off', ?_⟩
    rw [List.length_cons, readEntries, entriesBytes, entryBytes, List.append_assoc, List.append_assoc, List.append_assoc]
    rw [bind_of_ok (bytes_append hentry.nodeAddr), bind_of_ok (u64le_append hentry.sequence),
      bind_of_ok (u64le_append hentry.timestamp), bind_of_ok hoff']
    rfl

theorem readEntries_eq_ok {count : Nat} {r r' : BinaryReader} (h : readEntries count r = .ok (entries, r')) :
    entries.length = count ∧ (∀ entry ∈ entries, entry.Wire) ∧ r.rest = entriesBytes entries ++ r'.rest := by
  induction count generalizing r entries with
  | zero =>
    cases h
    exact ⟨rfl, (fun entry he => by cases he), rfl⟩
  | succ count ih =>
    obtain ⟨addr, r₁, haddr, h⟩ := bind_eq_ok.1 h
    obtain ⟨sequence, r₂, hsequence, h⟩ := bind_eq_ok.1 h
    obtain ⟨timestamp, r₃, htimestamp, h⟩ := bind_eq_ok.1 h
    obtain ⟨tail, r₄, htail, h⟩ := bind_eq_ok.1 h
    cases h
    obtain ⟨hlen, htail, hr⟩ := ih htail
    obtain ⟨haddr, hr₁, -⟩ := bytes_eq_ok haddr
    obtain ⟨hsequence, hr₂, -⟩ := uint_eq_ok hsequence
    obtain ⟨htimestamp, hr₃, -⟩ := uint_eq_ok htimestamp
    refine ⟨by rw [List.length_cons, hlen], List.forall_mem_cons.2 ⟨⟨haddr, ?_, ?_⟩, htail⟩, ?_⟩
    · show sequence < 2 ^ 64
      omega
    · show timestamp < 2 ^ 64
      omega
    · rw [hr₁, hr₂, hr₃, hr, entriesBytes, entryBytes]
      simp only [List.append_assoc]

theorem encodeTreeAnnounce_eq (h : announce.Wire) (hv : validateTreeAnnounceSemantics announce = .ok ()) :
    encodeTreeAnnounce announce = .ok announce.bytes := by
  have hentries := encodeEntries_eq fun entry he => ⟨(h.ancestry entry he).sequence, (h.ancestry entry he).timestamp⟩
  rw [encodeTreeAnnounce, hv, hentries, BinaryWriter.u64le, BinaryWriter.u64le, BinaryWriter.u16le,
    BinaryWriter.uint_of_lt h.sequence, BinaryWriter.uint_of_lt h.timestamp, BinaryWriter.uint_of_lt h.length]
  show (if announce.signature.length ≠ 64 then _ else _) = _
  rw [if_neg (not_not.2 h.signature)]
  rfl

theorem length_bytes (h : announce.Wire) : announce.bytes.length = 100 + 32 * announce.ancestry.length := by
  have hentries := length_entriesBytes fun entry he => (h.ancestry entry he).nodeAddr
  simp [TreeAnnounce.bytes, h.parent, h.signature, hentries]
  omega

/-- What is encoded is decoded again. -/
theorem decodeTreeAnnounce_bytes (h : announce.Wire) (hv : validateTreeAnnounceSemantics announce = .ok ()) :
    decodeTreeAnnounce announce.bytes = .ok announce := by
  have hne : announce.ancestry.length ≠ 0 := by
    intro hz
    rw [validateTreeAnnounceSemantics, List.length_eq_zero_iff.1 hz] at hv
    cases hv
  have hlen := length_bytes h
  have hlong : ¬announce.bytes.length < 1 + TREE_ANNOUNCE_MIN_PAYLOAD_SIZE := by
    rw [hlen, TREE_ANNOUNCE_MIN_PAYLOAD_SIZE]
    omega
  have hrest : (entriesBytes announce.ancestry ++ announce.signature).length = announce.ancestry.length * 32 + 64 := by
    rw [List.length_append, h.signature, length_entriesBytes fun entry he => (h.ancestry entry he).nodeAddr]
    omega
  obtain ⟨off', hoff'⟩ := @readEntries_append _ (0 + 1 + 1 + 8 + 8 + 16 + 2) announce.signature h.ancestry
  rw [decodeTreeAnnounce, if_neg hlong]
  refine Exec.except_bind_eq_ok.2 ⟨announce, run_eq_ok.2 ⟨⟨off' + 64, []⟩, ?_⟩, by rw [hv]; rfl⟩
  simp only [TreeAnnounce.bytes, List.append_assoc]
  have h1 : u8 ⟨0, leBytes 1 LinkMessageType.TreeAnnounce ++ (leBytes 1 TREE_ANNOUNCE_VERSION ++
      (leBytes 8 announce.sequence ++ (leBytes 8 announce.timestamp ++ (announce.parent ++
        (leBytes 2 announce.ancestry.length ++ (entriesBytes announce.ancestry ++ announce.signature))))))⟩ = _ :=
    u8_append (by decide)
  rw [bind_of_ok h1]
  simp only [ne_eq, not_true_eq_false, if_false]
  rw [bind_of_ok (u8_append (by decide))]
  simp only [not_true_eq_false, if_false]
  rw [bind_of_ok (u64le_append h.sequence), bind_of_ok (u64le_append h.timestamp), bind_of_ok (bytes_append h.parent),
    bind_of_ok (u16le_append h.length)]
  have hget : (get : Read BinaryReader) ⟨0 + 1 + 1 + 8 + 8 + 16 + 2, entriesBytes announce.ancestry ++ announce.signature⟩ =
      .ok (⟨0 + 1 + 1 + 8 + 8 + 16 + 2, entriesBytes announce.ancestry ++ announce.signature⟩,
        ⟨0 + 1 + 1 + 8 + 8 + 16 + 2, entriesBytes announce.ancestry ++ announce.signature⟩) := rfl
  rw [bind_of_ok hget, if_neg]
  · rw [bind_of_ok hoff', bind_of_ok (bytes_all h.signature)]
    rfl
  · rintro (hz | hl)
    · exact hne hz
    · exact hl hrest

/-- What is decoded fits the wire, is valid, and encodes to what was read. -/
theorem decodeTreeAnnounce_eq_bytes {buf : Bytes} (h : decodeTreeAnnounce buf = .ok announce) :
    announce.Wire ∧ validateTreeAnnounceSemantics announce = .ok () ∧ buf = announce.bytes := by
  unfold decodeTreeAnnounce at h
  split at h
  · cases h
  obtain ⟨a, ha, h⟩ := except_bind_eq_ok.1 h
  obtain ⟨⟨⟩, hv, h⟩ := except_bind_eq_ok.1 h
  cases h
  obtain ⟨r', ha⟩ := run_eq_ok.1 ha
  obtain ⟨msgType, r₁, hmsgType, ha⟩ := bind_eq_ok.1 ha
  split at ha
  · cases ha
  rename_i hty
  obtain ⟨version, r₂, hversion, ha⟩ := bind_eq_ok.1 ha
  split at ha
  · cases ha
  rename_i hver
  obtain ⟨sequence, r₃, hsequence, ha⟩ := bind_eq_ok.1 ha
  obtain ⟨timestamp, r₄, htimestamp, ha⟩ := bind_eq_ok.1 ha
  obtain ⟨parent, r₅, hparent, ha⟩ := bind_eq_ok.1 ha
  obtain ⟨count, r₆, hcount, ha⟩ := bind_eq_ok.1 ha
  obtain ⟨r₇, r₈, hget, ha⟩ := bind_eq_ok.1 ha
  cases hget
  split at ha
  · cases ha
  rename_i hlength
  obtain ⟨ancestry, r₉, hancestry, ha⟩ := bind_eq_ok.1 ha
  obtain ⟨signature, r₁₀, hsignature, ha⟩ := bind_eq_ok.1 ha
  cases ha
  obtain ⟨-, hr₁, -⟩ := uint_eq_ok hmsgType
  obtain ⟨-, hr₂, -⟩ := uint_eq_ok hversion
  obtain ⟨hsequence, hr₃, -⟩ := uint_eq_ok hsequence
  obtain ⟨htimestamp, hr₄, -⟩ := uint_eq_ok htimestamp
  obtain ⟨hparent, hr₅, -⟩ := bytes_eq_ok hparent
  obtain ⟨hcount, hr₆, -⟩ := uint_eq_ok hcount
  obtain ⟨rfl, hwire, hr₉⟩ := readEntries_eq_ok hancestry
  obtain ⟨hsignature, hr₁₀, -⟩ := bytes_eq_ok hsignature
  refine ⟨⟨?_, ?_, hparent, hwire, hcount, hsignature⟩, hv, ?_⟩
  · show sequence < 2 ^ 64
    omega
  · show timestamp < 2 ^ 64
    omega
  · -- the length check leaves nothing behind the signature
    have hend : r'.rest = [] := by
      have hlen := not_not.1 (not_or.1 hlength).2
      have hentries := length_entriesBytes fun entry he => (hwire entry he).nodeAddr
      rw [hr₉, hr₁₀, List.length_append, List.length_append, hentries, hsignature, TREE_COORD_ENTRY_SIZE] at hlen
      exact List.length_eq_zero_iff.1 (by omega)
    rw [show buf = _ from hr₁, hr₂, hr₃, hr₄, hr₅, hr₆, hr₉, hr₁₀, hend, not_not.1 hty, not_not.1 hver]
    simp only [TreeAnnounce.bytes, List.append_assoc, List.append_nil]

theorem decodeTreeAnnounce_eq_ok {buf : Bytes} (h : decodeTreeAnnounce buf = .ok announce) :
    announce.Wire ∧ validateTreeAnnounceSemantics announce = .ok () :=
  let ⟨hw, hv, _⟩ := decodeTreeAnnounce_eq_bytes h
  ⟨hw, hv⟩

end

end Fips
