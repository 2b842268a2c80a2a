import Fips.Lib.UnitStrings

/-!
# `recentPeers.ts`: reusable numeric UDP socket addresses

An address is read as IPv4 or, in brackets, as IPv6 with an optional scope, and gets one canonical
spelling; two spellings of one socket have the same. The host of an IPv6 address goes through the
platform's URL parser.
-/

namespace Fips
open UnitStrings

/-- What `recentPeers.ts` uses of the platform and of `@scure/base`. -/
structure Platform where
  /-- `new URL("http://[host]/").hostname`, or none where the constructor throws. -/
  urlHostname : UnitString → Option UnitString
  /-- `bech32.decode(encoded, 1023)`: prefix and words, or none where it throws. -/
  bech32Decode : UnitString → Option (UnitString × List UInt8)
  /-- `bech32.encode(prefix, words, 1023)`. -/
  bech32Encode : UnitString → List UInt8 → UnitString
  toWords : List UInt8 → List UInt8
  fromWords : List UInt8 → Option (List UInt8)

structure ParsedUdpSocketAddr where
  addr : UnitString
  canonical : UnitString
  key : UnitString
deriving DecidableEq

def parseReusablePort (value : UnitString) : Option Nat :=
  if isNumber value = false then none
  else
    let port := numberValue value
    if port > 0 ∧ port ≤ 65535 then some port else none

def parseIpv6Scope (value : UnitString) : Option Nat :=
  if isNumber value = false then none
  else
    let scope := numberValue value
    if scope ≤ 0xffffffff then some scope else none

/-- `/^(0|[1-9][0-9]{0,2})$/` and at most 255. -/
def parseOctet (octet : UnitString) : Option Nat :=
  if octet = [unit '0'] then some 0
  else if octet.head? ≠ some (unit '0') ∧ isNumber octet ∧ octet.length ≤ 3 ∧ numberValue octet ≤ 255 then
    some (numberValue octet)
  else none

def parseIpv4SocketAddr (addr : UnitString) : Option UnitString := do
  let separator := lastIndexOf (unit ':') addr
  if separator ≤ 0 ∨ indexOf (unit ':') addr ≠ separator then none
  else
    let port ← parseReusablePort (addr.drop (separator.toNat + 1))
    let octetStrings := (addr.take separator.toNat).splitOn (unit '.')
    if octetStrings.length ≠ 4 then none
    else
      let octets ← octetStrings.mapM parseOctet
      if octets.all (· = 0) then none
      else if octets.headD 0 ≥ 224 ∧ octets.headD 0 ≤ 239 then none
      else some ([unit '.'].intercalate (octets.map decimal) ++ [unit ':'] ++ decimal port)

/-- `toLowerCase()` of a host name, which is ASCII. -/
def lower (u : UInt16) : UInt16 := if 65 ≤ u.toNat ∧ u.toNat ≤ 90 then u + 32 else u

/-- The host that the URL parser makes of an IPv6 address. -/
def normalizedHost (P : Platform) (host : UnitString) : Option UnitString := do
  let urlHost ← P.urlHostname host
  if urlHost.head? ≠ some (unit '[') ∨ urlHost.getLast? ≠ some (unit ']') then none
  else some ((urlHost.drop 1).dropLast.map lower)

/-- The host in the brackets and its scope behind a `%`. -/
def splitScope (hostAndScope : UnitString) : Option (UnitString × Nat) :=
  let scopeSeparator := indexOf (unit '%') hostAndScope
  if scopeSeparator ≠ lastIndexOf (unit '%') hostAndScope then none
  else if scopeSeparator < 0 then some (hostAndScope, 0)
  else (parseIpv6Scope (hostAndScope.drop (scopeSeparator.toNat + 1))).map fun scope =>
    (hostAndScope.take scopeSeparator.toNat, scope)

def parseIpv6SocketAddr (P : Platform) (addr : UnitString) : Option UnitString := do
  let closingBracket := indexOf (unit ']') addr
  if closingBracket ≤ 1 ∨ addr[closingBracket.toNat + 1]? ≠ some (unit ':') then none
  else
    let port ← parseReusablePort (addr.drop (closingBracket.toNat + 2))
    let (host, scope) ← splitScope ((addr.take closingBracket.toNat).drop 1)
    let normalizedHost ← normalizedHost P host
    if normalizedHost = [unit ':', unit ':'] ∨ normalizedHost.take 2 = [unit 'f', unit 'f'] then none
    else
      let normalizedScope := if scope = 0 then [] else unit '%' :: decimal scope
      some (unit '[' :: (normalizedHost ++ normalizedScope) ++ [unit ']', unit ':'] ++ decimal port)

/-- The canonical form of a non-empty address, if it is a reusable socket address. -/
def parseSocketAddr (P : Platform) (addr : UnitString) : Option UnitString :=
  if addr.head? = some (unit '[') then parseIpv6SocketAddr P addr else parseIpv4SocketAddr addr

def requireReusableUdpSocketAddr (P : Platform) (addr : UnitString) (label : String) : Except String ParsedUdpSocketAddr :=
  if addr = [] then .error s!"{label} must not be empty"
  else
    match parseSocketAddr P addr with
    | none => .error s!"{label} must be a reusable numeric UDP socket address"
    | some canonical => .ok { addr, canonical, key := canonical }

/-- The URL parser's IPv6 hosts: hexadecimal digits and colons, and a host that is normal stays so. -/
structure Platform.NormalisesIpv6 (P : Platform) : Prop where
  address : ∀ {host h}, normalizedHost P host = some h → h ≠ [] ∧ unit ']' ∉ h ∧ unit '%' ∉ h
  idempotent : ∀ {host h}, normalizedHost P host = some h → normalizedHost P h = some h

/-! ## Canonical spellings -/

theorem parseReusablePort_decimal {port : Nat} (h : 0 < port ∧ port ≤ 65535) :
    parseReusablePort (decimal port) = some port := by
  simp [parseReusablePort, isNumber_decimal, numberValue_decimal, h]

theorem parseReusablePort_eq_some {value : UnitString} {port : Nat} (h : parseReusablePort value = some port) :
    0 < port ∧ port ≤ 65535 := by
  unfold parseReusablePort at h
  dsimp only at h
  split at h
  · cases h
  split at h
  · rename_i hrange
    cases h
    exact hrange
  · cases h

theorem parseIpv6Scope_eq_some {value : UnitString} {scope : Nat} (h : parseIpv6Scope value = some scope) :
    scope ≤ 0xffffffff := by
  unfold parseIpv6Scope at h
  dsimp only at h
  split at h
  · cases h
  split at h
  · rename_i hrange
    cases h
    exact hrange
  · cases h

theorem parseIpv6Scope_decimal {scope : Nat} (h : scope ≤ 0xffffffff) : parseIpv6Scope (decimal scope) = some scope := by
  simp [parseIpv6Scope, isNumber_decimal, numberValue_decimal, h]

theorem parseOctet_decimal {n : Nat} (h : n ≤ 255) : parseOctet (decimal n) = some n := by
  have hall : ∀ n < 256, parseOctet (decimal n) = some n := by decide +kernel
  exact hall n (by omega)

theorem parseOctet_eq_some {octet : UnitString} {n : Nat} (h : parseOctet octet = some n) : n ≤ 255 := by
  unfold parseOctet at h
  split at h
  · cases h
    exact Nat.zero_le _
  split at h
  · rename_i hoctet
    cases h
    exact hoctet.2.2.2
  · cases h

theorem mapM_parseOctet_decimal {octets : List Nat} (h : ∀ n ∈ octets, n ≤ 255) :
    (octets.map decimal).mapM parseOctet = some octets := by
  induction octets with
  | nil => rfl
  | cons n octets ih =>
    rw [List.map_cons, List.mapM_cons, parseOctet_decimal (h n List.mem_cons_self),
      ih (fun m hm => h m (List.mem_cons_of_mem _ hm))]
    rfl

theorem mapM_parseOctet_eq_some {octetStrings : List UnitString} {octets : List Nat}
    (h : octetStrings.mapM parseOctet = some octets) :
    octets.length = octetStrings.length ∧ ∀ n ∈ octets, n ≤ 255 := by
  induction octetStrings generalizing octets with
  | nil =>
    cases h
    exact ⟨rfl, by simp⟩
  | cons octet octetStrings ih =>
    simp only [List.mapM_cons, Option.bind_eq_bind, Option.bind_eq_some_iff] at h
    obtain ⟨n, hn, rest, hrest, heq⟩ := h
    cases heq
    obtain ⟨hlen, hall⟩ := ih hrest
    refine ⟨by rw [List.length_cons, List.length_cons, hlen], ?_⟩
    intro m hm
    rcases List.mem_cons.1 hm with rfl | hm
    · exact parseOctet_eq_some hn
    · exact hall m hm

/-- The octets and the port that an IPv4 address names. -/
structure Ipv4Socket (octets : List Nat) (port : Nat) : Prop where
  four : octets.length = 4
  bytes : ∀ n ∈ octets, n ≤ 255
  specified : octets.all (· = 0) = false
  unicast : ¬(octets.headD 0 ≥ 224 ∧ octets.headD 0 ≤ 239)
  port : 0 < port ∧ port ≤ 65535

def ipv4Canonical (octets : List Nat) (port : Nat) : UnitString :=
  [unit '.'].intercalate (octets.map decimal) ++ [unit ':'] ++ decimal port

theorem parseIpv4SocketAddr_eq_some {addr canonical : UnitString} (h : parseIpv4SocketAddr addr = some canonical) :
    ∃ octets port, Ipv4Socket octets port ∧ canonical = ipv4Canonical octets port := by
  unfold parseIpv4SocketAddr at h
  dsimp only at h
  split at h
  · cases h
  simp only [Option.bind_eq_bind, Option.bind_eq_some_iff] at h
  obtain ⟨port, hport, h⟩ := h
  split at h
  · cases h
  rename_i hfour
  simp only [Option.bind_eq_some_iff] at h
  obtain ⟨octets, hoctets, h⟩ := h
  split at h
  · cases h
  rename_i hspecified
  split at h
  · cases h
  rename_i hunicast
  cases h
  obtain ⟨hlen, hbytes⟩ := mapM_parseOctet_eq_some hoctets
  exact ⟨octets, port, ⟨hlen.trans (not_not.1 hfour), hbytes, Bool.eq_false_of_not_eq_true hspecified, hunicast,
    parseReusablePort_eq_some hport⟩, rfl⟩

theorem notMem_intercalate {u : UInt16} (hdot : u ≠ unit '.') (hdigit : isDigit u = false) (octets : List Nat) :
    u ∉ [unit '.'].intercalate (octets.map decimal) := by
  induction octets with
  | nil => simp [List.intercalate]
  | cons n octets ih =>
    cases octets with
    | nil => simpa [List.intercalate] using notMem_decimal hdigit n
    | cons m octets =>
      have hcons : [unit '.'].intercalate ((n :: m :: octets).map decimal)
          = decimal n ++ unit '.' :: [unit '.'].intercalate ((m :: octets).map decimal) := by
        simp [List.intercalate]
      rw [hcons, List.mem_append, List.mem_cons]
      rintro (h | h | h)
      · exact notMem_decimal hdigit n h
      · exact hdot h
      · exact ih h

theorem parseIpv4SocketAddr_canonical {octets : List Nat} {port : Nat} (h : Ipv4Socket octets port) :
    parseIpv4SocketAddr (ipv4Canonical octets port) = some (ipv4Canonical octets port) := by
  have hcolon : unit ':' ∉ [unit '.'].intercalate (octets.map decimal) :=
    notMem_intercalate (by decide) (by decide) octets
  have hform : ipv4Canonical octets port
      = [unit '.'].intercalate (octets.map decimal) ++ unit ':' :: decimal port := by simp [ipv4Canonical]
  have hlast : lastIndexOf (unit ':') (ipv4Canonical octets port)
      = ([unit '.'].intercalate (octets.map decimal)).length := by
    rw [hform]
    exact lastIndexOf_append (notMem_decimal (by decide) port)
  have hfirst : indexOf (unit ':') (ipv4Canonical octets port)
      = ([unit '.'].intercalate (octets.map decimal)).length := by
    rw [hform]
    exact indexOf_append hcolon
  have hsplit : ([unit '.'].intercalate (octets.map decimal)).splitOn (unit '.') = octets.map decimal := by
    apply List.splitOn_intercalate
    · intro l hl
      obtain ⟨n, -, rfl⟩ := List.mem_map.1 hl
      exact notMem_decimal (by decide) n
    · intro hnil
      have := congrArg List.length hnil
      rw [List.length_map, h.four] at this
      cases this
  have hpos : 0 < ([unit '.'].intercalate (octets.map decimal)).length := by
    rw [List.length_pos_iff]
    intro hnil
    rw [hnil] at hsplit
    have := congrArg List.length hsplit
    rw [List.length_map, h.four] at this
    cases this
  have hport : (ipv4Canonical octets port).drop (([unit '.'].intercalate (octets.map decimal)).length + 1) = decimal port := by
    rw [hform, ← List.drop_drop, List.drop_left' rfl]
    rfl
  have hhost : (ipv4Canonical octets port).take ([unit '.'].intercalate (octets.map decimal)).length
      = [unit '.'].intercalate (octets.map decimal) := by
    rw [hform]
    exact List.take_left' rfl
  unfold parseIpv4SocketAddr
  dsimp only
  rw [hlast, hfirst, if_neg (by omega), Int.toNat_natCast, hport, parseReusablePort_decimal h.port, hhost, hsplit]
  simp only [Option.bind_eq_bind, Option.bind_some, List.length_map, mapM_parseOctet_decimal h.bytes]
  rw [if_neg (not_not.2 h.four), if_neg (by rw [h.specified]; rintro ⟨⟩), if_neg h.unicast]
  rfl

def ipv6Scope (scope : Nat) : UnitString := if scope = 0 then [] else unit '%' :: decimal scope

def ipv6Canonical (host : UnitString) (scope port : Nat) : UnitString :=
  unit '[' :: (host ++ ipv6Scope scope) ++ [unit ']', unit ':'] ++ decimal port

/-- The normal host, the scope and the port that an IPv6 address names. -/
structure Ipv6Socket (P : Platform) (host : UnitString) (scope port : Nat) : Prop where
  normal : ∃ spelling, normalizedHost P spelling = some host
  unicast : ¬(host = [unit ':', unit ':'] ∨ host.take 2 = [unit 'f', unit 'f'])
  scope : scope ≤ 0xffffffff
  port : 0 < port ∧ port ≤ 65535

theorem splitScope_eq_some {hostAndScope host : UnitString} {scope : Nat}
    (h : splitScope hostAndScope = some (host, scope)) : scope ≤ 0xffffffff := by
  unfold splitScope at h
  dsimp only at h
  split at h
  · cases h
  split at h
  · cases h
    exact Nat.zero_le _
  · obtain ⟨scope', hscope, heq⟩ := Option.map_eq_some_iff.1 h
    cases heq
    exact parseIpv6Scope_eq_some hscope

theorem splitScope_canonical {host : UnitString} {scope : Nat} (hpercent : unit '%' ∉ host) (hscope : scope ≤ 0xffffffff) :
    splitScope (host ++ ipv6Scope scope) = some (host, scope) := by
  unfold splitScope
  dsimp only
  by_cases hzero : scope = 0
  · have hnil : ipv6Scope scope = [] := if_pos hzero
    rw [hnil, List.append_nil, indexOf_of_notMem hpercent, lastIndexOf_of_notMem hpercent,
      if_neg (not_not.2 rfl), if_pos (by omega), hzero]
  · have hcons : ipv6Scope scope = unit '%' :: decimal scope := if_neg hzero
    have hdigits : (host ++ unit '%' :: decimal scope).drop (host.length + 1) = decimal scope := by
      rw [← List.drop_drop, List.drop_left' rfl]
      rfl
    rw [hcons, indexOf_append hpercent, lastIndexOf_append (notMem_decimal (by decide) scope),
      if_neg (not_not.2 rfl), if_neg (by omega), Int.toNat_natCast, hdigits, parseIpv6Scope_decimal hscope,
      List.take_left' rfl]
    rfl

theorem parseIpv6SocketAddr_eq_some {P : Platform} {addr canonical : UnitString}
    (h : parseIpv6SocketAddr P addr = some canonical) :
    ∃ host scope port, Ipv6Socket P host scope port ∧ canonical = ipv6Canonical host scope port := by
  unfold parseIpv6SocketAddr at h
  dsimp only at h
  split at h
  · cases h
  simp only [Option.bind_eq_bind, Option.bind_eq_some_iff] at h
  obtain ⟨port, hport, ⟨spelling, scope⟩, hscope, host, hhost, h⟩ := h
  dsimp only at h hhost
  split at h
  · cases h
  rename_i hunicast
  cases h
  exact ⟨host, scope, port, ⟨⟨_, hhost⟩, hunicast, splitScope_eq_some hscope, parseReusablePort_eq_some hport⟩, rfl⟩

theorem parseIpv6SocketAddr_canonical {P : Platform} (hP : P.NormalisesIpv6) {host : UnitString} {scope port : Nat}
    (h : Ipv6Socket P host scope port) :
    parseIpv6SocketAddr P (ipv6Canonical host scope port) = some (ipv6Canonical host scope port) := by
  obtain ⟨spelling, hspelling⟩ := h.normal
  obtain ⟨hne, hbracket, hpercent⟩ := hP.address hspelling
  have hpos : 0 < host.length := List.length_pos_iff.2 hne
  have hscope : unit ']' ∉ ipv6Scope scope := by
    unfold ipv6Scope
    split
    · simp
    · rw [List.mem_cons, not_or]
      exact ⟨by decide, notMem_decimal (by decide) scope⟩
  have hform : ipv6Canonical host scope port
      = (unit '[' :: (host ++ ipv6Scope scope)) ++ unit ']' :: unit ':' :: decimal port := by simp [ipv6Canonical]
  have hclosing : indexOf (unit ']') (ipv6Canonical host scope port)
      = ((unit '[' :: (host ++ ipv6Scope scope)).length : Int) := by
    rw [hform]
    apply indexOf_append
    rw [List.mem_cons, List.mem_append, not_or, not_or]
    exact ⟨by decide, hbracket, hscope⟩
  have hcolon : (ipv6Canonical host scope port)[(unit '[' :: (host ++ ipv6Scope scope)).length + 1]? = some (unit ':') := by
    rw [hform, List.getElem?_append_right (by omega), Nat.add_sub_cancel_left]
    rfl
  have hport : (ipv6Canonical host scope port).drop ((unit '[' :: (host ++ ipv6Scope scope)).length + 2) = decimal port := by
    rw [hform, ← List.drop_drop, List.drop_left' rfl]
    rfl
  have hinner : ((ipv6Canonical host scope port).take (unit '[' :: (host ++ ipv6Scope scope)).length).drop 1
      = host ++ ipv6Scope scope := by
    rw [hform, List.take_left' rfl]
    rfl
  have hlow : ¬(((unit '[' :: (host ++ ipv6Scope scope)).length : Int) ≤ 1 ∨
      (ipv6Canonical host scope port)[(unit '[' :: (host ++ ipv6Scope scope)).length + 1]? ≠ some (unit ':')) := by
    rintro (hle | hcol)
    · simp only [List.length_cons, List.length_append] at hle
      omega
    · exact hcol hcolon
  unfold parseIpv6SocketAddr
  dsimp only
  rw [hclosing, Int.toNat_natCast, if_neg hlow, hport, parseReusablePort_decimal h.port, hinner,
    splitScope_canonical hpercent h.scope]
  simp only [Option.bind_eq_bind, Option.bind_some, hP.idempotent hspelling]
  rw [if_neg h.unicast]
  rfl

theorem parseSocketAddr_nil (P : Platform) : parseSocketAddr P [] = none := by
  rw [parseSocketAddr, if_neg (by rintro ⟨⟩)]
  decide

theorem requireReusableUdpSocketAddr_eq_ok {P : Platform} {addr : UnitString} {label : String}
    {parsed : ParsedUdpSocketAddr} : requireReusableUdpSocketAddr P addr label = .ok parsed ↔
      parseSocketAddr P addr = some parsed.key ∧ parsed = ⟨addr, parsed.key, parsed.key⟩ := by
  unfold requireReusableUdpSocketAddr
  by_cases hnil : addr = []
  · rw [if_pos hnil, hnil, parseSocketAddr_nil]
    simp
  · rw [if_neg hnil]
    rcases parseSocketAddr P addr with _ | canonical
    · simp
    · dsimp only
      constructor
      · rintro ⟨⟩
        exact ⟨rfl, rfl⟩
      · rintro ⟨hk, hp⟩
        rw [hp, Option.some.inj hk]

/-- A canonical address is its own canonical form. -/
theorem parseSocketAddr_canonical {P : Platform} (hP : P.NormalisesIpv6) {addr canonical : UnitString}
    (h : parseSocketAddr P addr = some canonical) : parseSocketAddr P canonical = some canonical := by
  unfold parseSocketAddr at h
  by_cases hbracket : addr.head? = some (unit '[')
  · rw [if_pos hbracket] at h
    obtain ⟨host, scope, port, hsocket, rfl⟩ := parseIpv6SocketAddr_eq_some h
    have hhead : (ipv6Canonical host scope port).head? = some (unit '[') := rfl
    rw [parseSocketAddr, if_pos hhead, parseIpv6SocketAddr_canonical hP hsocket]
  · rw [if_neg hbracket] at h
    obtain ⟨octets, port, hsocket, rfl⟩ := parseIpv4SocketAddr_eq_some h
    have hhead : (ipv4Canonical octets port).head? ≠ some (unit '[') := by
      intro hh
      have hmem : unit '[' ∈ ipv4Canonical octets port := List.mem_of_mem_head? hh
      unfold ipv4Canonical at hmem
      rw [List.mem_append, List.mem_append, List.mem_singleton] at hmem
      rcases hmem with (hm | hm) | hm
      · exact notMem_intercalate (by decide) (by decide) octets hm
      · exact absurd hm (by decide)
      · exact notMem_decimal (by decide) port hm
    rw [parseSocketAddr, if_neg hhead, parseIpv4SocketAddr_canonical hsocket]

end Fips
