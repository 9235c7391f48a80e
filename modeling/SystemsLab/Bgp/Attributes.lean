import SystemsLab.Bgp.AsPath

/-!
# Path attributes

The attributes of one UPDATE, written by `encode_for` and read by `parse_attributes` and `into_attributes`.
-/

namespace SystemsLab.Bgp

def bgpAttrOrigin : UInt8 := 1
def bgpAttrAsPath : UInt8 := 2
def bgpAttrNextHop : UInt8 := 3
def bgpAttrMed : UInt8 := 4
def bgpAttrLocalPref : UInt8 := 5
def bgpAttrAtomicAggregate : UInt8 := 6
def bgpAttrOriginatorId : UInt8 := 9
def bgpAttrClusterList : UInt8 := 10
def bgpAttrMpReachNlri : UInt8 := 14
def bgpAttrMpUnreachNlri : UInt8 := 15
def bgpAttrExtCommunities : UInt8 := 16
def bgpAttrAs4Path : UInt8 := 17

def flagOptional : UInt8 := 0x80
def flagTransitive : UInt8 := 0x40
def flagExtLen : UInt8 := 0x10

def maxClusterListLen : Nat := 32
def maxMpNlriBytes : Nat := 4096

inductive BgpOrigin
  | igp
  | egp
  | incomplete
deriving DecidableEq, Repr

namespace BgpOrigin

def fromU8 (v : UInt8) : Option BgpOrigin :=
  if v = 0 then some .igp else if v = 1 then some .egp else if v = 2 then some .incomplete else none

def toU8 : BgpOrigin → UInt8
  | .igp => 0
  | .egp => 1
  | .incomplete => 2

end BgpOrigin

/-! ## Multiprotocol attributes -/

structure MpReachNlri where
  afi : UInt16
  safi : UInt8
  nextHop : List UInt8
  nlri : List UInt8
deriving DecidableEq, Repr

def MpReachNlri.encodeValue (mp : MpReachNlri) : List UInt8 :=
  u16Bytes mp.afi.toNat ++ [mp.safi, UInt8.ofNat mp.nextHop.length] ++ mp.nextHop ++ [0] ++ mp.nlri

def MpReachNlri.parseValue (value : List UInt8) : Except Fault MpReachNlri := do
  let size := value.length
  require (5 ≤ size) (updateError bgpSubAttributeLengthError s!"MP_REACH_NLRI is {size} bytes, minimum is 5")
  let afi ← u16At value 0
  let safi ← byteAt value 2
  let nhLen ← byteAt value 3
  let nhEnd := 4 + nhLen.toNat
  require (nhEnd < size) (updateError bgpSubAttributeLengthError
    s!"MP_REACH_NLRI next hop of {nhLen} bytes runs past the {size}-byte attribute")
  let nlri ← bytesAt value (nhEnd + 1) size
  require (nlri.length ≤ maxMpNlriBytes) (updateError bgpSubInvalidNetworkField
    "MP_REACH_NLRI payload exceeds the maximum BGP message size")
  let nextHop ← bytesAt value 4 nhEnd
  pure ⟨UInt16.ofNat afi, safi, nextHop, nlri⟩

structure MpUnreachNlri where
  afi : UInt16
  safi : UInt8
  nlri : List UInt8
deriving DecidableEq, Repr

def MpUnreachNlri.encodeValue (mp : MpUnreachNlri) : List UInt8 := u16Bytes mp.afi.toNat ++ [mp.safi] ++ mp.nlri

def MpUnreachNlri.parseValue (value : List UInt8) : Except Fault MpUnreachNlri := do
  let size := value.length
  require (3 ≤ size) (updateError bgpSubAttributeLengthError s!"MP_UNREACH_NLRI is {size} bytes, minimum is 3")
  let nlri ← bytesAt value 3 size
  require (nlri.length ≤ maxMpNlriBytes) (updateError bgpSubInvalidNetworkField
    "MP_UNREACH_NLRI payload exceeds the maximum BGP message size")
  let afi ← u16At value 0
  let safi ← byteAt value 2
  pure ⟨UInt16.ofNat afi, safi, nlri⟩

theorem MpReachNlri.avoids_parseValue (value : List UInt8) : Avoids .index (parseValue value) := by
  simp only [parseValue, avoids_bind, avoids_require, updateError_ne_index, false_implies, true_and, require_eq_ok,
    avoids_byteAt, avoids_readSlice, except_pure_eq, avoids_ok, implies_true, and_true]
  grind [avoids_u16At]

theorem MpUnreachNlri.avoids_parseValue (value : List UInt8) : Avoids .index (parseValue value) := by
  simp only [parseValue, avoids_bind, avoids_require, updateError_ne_index, false_implies, true_and, require_eq_ok,
    avoids_byteAt, avoids_readSlice, except_pure_eq, avoids_ok, implies_true, and_true]
  grind [avoids_u16At]

/-! ## Writing -/

@[ext] structure ExtCommunity where
  bytes : List UInt8
  length_bytes : bytes.length = 8
deriving DecidableEq

def ExtCommunity.ofBytes (l : List UInt8) : ExtCommunity :=
  ⟨padTo 8 (l.take 8), length_padTo (by simp)⟩

theorem ExtCommunity.ofBytes_bytes (x : ExtCommunity) : ofBytes x.bytes = x := by
  apply ExtCommunity.ext
  have h := x.length_bytes
  simp [ofBytes, padTo, List.take_of_length_le, h]

structure BgpPathAttributes where
  origin : BgpOrigin
  asPath : AsPath
  nextHop : Ipv4Address
  med : Option UInt32
  localPref : Option UInt32
  atomicAggregate : Bool
  extCommunities : List ExtCommunity
  mpReach : Option MpReachNlri
  mpUnreach : Option MpUnreachNlri
  originatorId : Option Ipv4Address
  clusterList : List Ipv4Address
  fourOctetAs : Bool
deriving DecidableEq

def pushAttribute (flags typeCode : UInt8) (value : List UInt8) : List UInt8 :=
  (if 255 < value.length then [flags ||| flagExtLen, typeCode] ++ u16Bytes value.length
   else [flags, typeCode, UInt8.ofNat value.length]) ++ value

namespace BgpPathAttributes
variable (a : BgpPathAttributes)

def isMpWithdrawOnly (hasIpv4Nlri : Bool) : Bool := a.mpUnreach.isSome && a.mpReach.isNone && !hasIpv4Nlri

-- The pieces of `encode_for`, in the order it writes them. Each is empty when its attribute is absent.

def encodeOrigin : List UInt8 := [flagTransitive, bgpAttrOrigin, 1] ++ [a.origin.toU8]

def encodeAsPath : List UInt8 := pushAttribute flagTransitive bgpAttrAsPath (a.asPath.encodeWidth a.fourOctetAs)

def needsAs4Path : Bool := !a.fourOctetAs && a.asPath.needsFourOctets

def encodeAs4Path : List UInt8 :=
  if a.needsAs4Path then pushAttribute (flagOptional ||| flagTransitive) bgpAttrAs4Path (a.asPath.encodeWidth true)
  else []

def encodeNextHop (hasIpv4Nlri : Bool) : List UInt8 :=
  if hasIpv4Nlri then [flagTransitive, bgpAttrNextHop, 4] ++ a.nextHop.octets else []

def encodeMed : List UInt8 := a.med.elim [] fun med => [flagOptional, bgpAttrMed, 4] ++ u32Bytes med

def encodeLocalPref : List UInt8 :=
  a.localPref.elim [] fun lp => [flagTransitive, bgpAttrLocalPref, 4] ++ u32Bytes lp

def encodeAtomicAggregate : List UInt8 :=
  if a.atomicAggregate then [flagTransitive, bgpAttrAtomicAggregate, 0] else []

def encodeOriginatorId : List UInt8 :=
  a.originatorId.elim [] fun id => [flagOptional, bgpAttrOriginatorId, 4] ++ id.octets

def encodeClusterList : List UInt8 :=
  if a.clusterList.isEmpty then []
  else pushAttribute flagOptional bgpAttrClusterList (a.clusterList.flatMap Ipv4Address.octets)

def encodeExtCommunities : List UInt8 :=
  if a.extCommunities.isEmpty then []
  else pushAttribute (flagOptional ||| flagTransitive) bgpAttrExtCommunities
    (a.extCommunities.flatMap ExtCommunity.bytes)

def encodeMpReach : List UInt8 :=
  a.mpReach.elim [] fun mp => pushAttribute flagOptional bgpAttrMpReachNlri mp.encodeValue

def encodeMpUnreach : List UInt8 :=
  a.mpUnreach.elim [] fun mp => pushAttribute flagOptional bgpAttrMpUnreachNlri mp.encodeValue

def encodeFor (hasIpv4Nlri : Bool) : List UInt8 :=
  if a.isMpWithdrawOnly hasIpv4Nlri then a.encodeMpUnreach
  else
    a.encodeOrigin ++ (a.encodeAsPath ++ (a.encodeAs4Path ++ (a.encodeNextHop hasIpv4Nlri ++ (a.encodeMed ++
      (a.encodeLocalPref ++ (a.encodeAtomicAggregate ++ (a.encodeOriginatorId ++ (a.encodeClusterList ++
        (a.encodeExtCommunities ++ (a.encodeMpReach ++ a.encodeMpUnreach))))))))))

/-- `encode`: for an UPDATE that announces IPv4 prefixes. -/
def encode : List UInt8 := a.encodeFor true

/-- The attributes as an UPDATE that announces IPv4 prefixes brings them to the other end. -/
def received : BgpPathAttributes :=
  { a with
    asPath :=
      if a.needsAs4Path then (a.asPath.wire a.fourOctetAs).mergeAs4Path (a.asPath.wire true)
      else a.asPath.wire a.fourOctetAs
    mpReach := none
    mpUnreach := none
    fourOctetAs := false }

end BgpPathAttributes

/-! ## Reading -/

structure ParsedAttributes where
  origin : Option BgpOrigin := none
  asPath : Option AsPath := none
  as4Path : Option AsPath := none
  nextHop : Option Ipv4Address := none
  med : Option UInt32 := none
  localPref : Option UInt32 := none
  atomicAggregate : Bool := false
  extCommunities : List ExtCommunity := []
  mpReach : Option MpReachNlri := none
  mpUnreach : Option MpUnreachNlri := none
  originatorId : Option Ipv4Address := none
  clusterList : List Ipv4Address := []
deriving DecidableEq

namespace ParsedAttributes

/-- The `match` on the type of one attribute: its checks and where its value goes. -/
def take (fourOctetAs : Bool) (typeCode : UInt8) (optional transitive : Bool) (value : List UInt8)
    (parsed : ParsedAttributes) : Except Fault ParsedAttributes := do
  let size := value.length
  if typeCode = bgpAttrOrigin then
    require (optional = false) (updateError bgpSubAttributeFlagsError "ORIGIN marked optional")
    require (size = 1) (updateError bgpSubAttributeLengthError "ORIGIN must be exactly one byte")
    let v ← byteAt value 0
    let origin ← okOr (updateError bgpSubInvalidOrigin s!"undefined ORIGIN value {v}") (BgpOrigin.fromU8 v)
    pure { parsed with origin := some origin }
  else if typeCode = bgpAttrAsPath then
    require (optional = false) (updateError bgpSubAttributeFlagsError "AS_PATH marked optional")
    let path ← AsPath.decodeWidth value fourOctetAs
    pure { parsed with asPath := some path }
  else if typeCode = bgpAttrAs4Path then
    require (optional = true) (updateError bgpSubAttributeFlagsError "AS4_PATH must be marked optional")
    let path ← AsPath.decodeWidth value true
    pure { parsed with as4Path := some path }
  else if typeCode = bgpAttrNextHop then
    require (optional = false) (updateError bgpSubAttributeFlagsError "NEXT_HOP marked optional")
    require (size = 4) (updateError bgpSubAttributeLengthError "NEXT_HOP must be exactly four bytes")
    let nextHop ← addressAt value 0
    pure { parsed with nextHop := some nextHop }
  else if typeCode = bgpAttrMed then
    require (size = 4) (updateError bgpSubAttributeLengthError "MULTI_EXIT_DISC must be exactly four bytes")
    let med ← u32At value 0
    pure { parsed with med := some med }
  else if typeCode = bgpAttrLocalPref then
    require (size = 4) (updateError bgpSubAttributeLengthError "LOCAL_PREF must be exactly four bytes")
    let lp ← u32At value 0
    pure { parsed with localPref := some lp }
  else if typeCode = bgpAttrAtomicAggregate then
    require (size = 0) (updateError bgpSubAttributeLengthError "ATOMIC_AGGREGATE must be empty")
    pure { parsed with atomicAggregate := true }
  else if typeCode = bgpAttrExtCommunities then
    require (¬ (size = 0 ∨ size % 8 ≠ 0)) (updateError bgpSubAttributeLengthError
      s!"EXTENDED_COMMUNITIES is {size} bytes, must be a non-zero multiple of 8")
    pure { parsed with extCommunities := parsed.extCommunities ++ (chunks 8 value).map ExtCommunity.ofBytes }
  else if typeCode = bgpAttrOriginatorId then
    require (¬ (optional = false ∨ transitive = true)) (updateError bgpSubAttributeFlagsError
      "ORIGINATOR_ID must be optional and non-transitive")
    require (size = 4)
      (updateError bgpSubAttributeLengthError s!"ORIGINATOR_ID is {size} bytes, must be exactly four")
    let id ← addressAt value 0
    pure { parsed with originatorId := some id }
  else if typeCode = bgpAttrClusterList then
    require (¬ (optional = false ∨ transitive = true)) (updateError bgpSubAttributeFlagsError
      "CLUSTER_LIST must be optional and non-transitive")
    require (¬ (size = 0 ∨ size % 4 ≠ 0)) (updateError bgpSubAttributeLengthError
      s!"CLUSTER_LIST is {size} bytes, must be a non-zero multiple of 4")
    let ids := size / 4
    require (ids ≤ maxClusterListLen) (updateError bgpSubAttributeLengthError
      s!"CLUSTER_LIST carries {ids} cluster IDs, more than the {maxClusterListLen} accepted")
    pure { parsed with clusterList := parsed.clusterList ++ (chunks 4 value).map Ipv4Address.ofOctets }
  else if typeCode = bgpAttrMpReachNlri then
    require (optional = true) (updateError bgpSubAttributeFlagsError "MP_REACH_NLRI must be marked optional")
    let mp ← MpReachNlri.parseValue value
    pure { parsed with mpReach := some mp }
  else if typeCode = bgpAttrMpUnreachNlri then
    require (optional = true) (updateError bgpSubAttributeFlagsError "MP_UNREACH_NLRI must be marked optional")
    let mp ← MpUnreachNlri.parseValue value
    pure { parsed with mpUnreach := some mp }
  else
    require (optional = true) (updateError bgpSubUnrecognizedWellKnownAttr
      s!"unrecognized well-known attribute {typeCode}")
    pure parsed

def valueLen (flags : UInt8) (data : List UInt8) : Except Fault (Nat × Nat) :=
  if flags &&& flagExtLen ≠ 0 then do
    require (4 ≤ data.length) (updateError bgpSubAttributeLengthError "truncated extended attribute length")
    pure (← u16At data 2, 4)
  else do
    require (3 ≤ data.length) (updateError bgpSubAttributeLengthError "truncated attribute length")
    pure ((← byteAt data 2).toNat, 3)

/-- One turn of the loop of `parse_attributes`; the state also holds the types seen. -/
def next (fourOctetAs : Bool) (s : ParsedAttributes × List UInt8) (data : List UInt8) :
    Except Fault ((ParsedAttributes × List UInt8) × Nat) := do
  require (2 ≤ data.length) (updateError bgpSubMalformedAttributeList "truncated path attribute header")
  let flags ← byteAt data 0
  let typeCode ← byteAt data 1
  let (len, hdr) ← valueLen flags data
  let valEnd := hdr + len
  let remaining := data.length - hdr
  require (valEnd ≤ data.length) (updateError bgpSubAttributeLengthError
    s!"attribute {typeCode} claims {len} bytes but only {remaining} remain")
  require (typeCode ∉ s.2) (updateError bgpSubMalformedAttributeList s!"duplicate path attribute {typeCode}")
  let value ← bytesAt data hdr valEnd
  let parsed ← s.1.take fourOctetAs typeCode (flags &&& flagOptional ≠ 0) (flags &&& flagTransitive ≠ 0) value
  pure ((parsed, s.2 ++ [typeCode]), valEnd)

/-- `parse_attributes`. -/
def parse (data : List UInt8) (fourOctetAs : Bool) : Except Fault ParsedAttributes := do
  let s ← scan (next fourOctetAs) data 0 ({}, [])
  pure s.1

def missing (what : String) : Fault := updateError bgpSubMissingWellKnownAttr s!"UPDATE has no {what}"

def intoAttributes (parsed : ParsedAttributes) (hasIpv4Nlri announcesMp : Bool) :
    Except Fault BgpPathAttributes := do
  let announces := hasIpv4Nlri || announcesMp
  let origin ← match parsed.origin with
    | some o => pure o
    | none => if announces then throw (missing "ORIGIN") else pure .igp
  let asPath ← match parsed.asPath with
    | some p => pure p
    | none => if announces then throw (missing "AS_PATH") else pure .empty
  let nextHop ← match parsed.nextHop with
    | some nh => pure nh
    | none => if hasIpv4Nlri then throw (missing "NEXT_HOP") else pure .unspecified
  let asPath := match parsed.as4Path with
    | some as4 => asPath.mergeAs4Path as4
    | none => asPath
  pure {
    origin, asPath, nextHop
    med := parsed.med
    localPref := parsed.localPref
    atomicAggregate := parsed.atomicAggregate
    extCommunities := parsed.extCommunities
    mpReach := parsed.mpReach
    mpUnreach := parsed.mpUnreach
    originatorId := parsed.originatorId
    clusterList := parsed.clusterList
    fourOctetAs := false }

end ParsedAttributes

/-! ## One attribute read back -/

namespace ParsedAttributes
variable {fourOctetAs optional transitive : Bool} {parsed : ParsedAttributes} (x : UInt32)
variable {value seen : List UInt8} {flags typeCode : UInt8}

theorem take_asPath (p : AsPath) :
    parsed.take fourOctetAs bgpAttrAsPath false transitive (p.encodeWidth fourOctetAs) =
      .ok { parsed with asPath := some (p.wire fourOctetAs) } := by
  simp [take, bgpAttrOrigin, bgpAttrAsPath, require, AsPath.decodeWidth_encodeWidth]

theorem take_as4Path (p : AsPath) :
    parsed.take fourOctetAs bgpAttrAs4Path true transitive (p.encodeWidth true) =
      .ok { parsed with as4Path := some (p.wire true) } := by
  simp [take, bgpAttrOrigin, bgpAttrAsPath, bgpAttrAs4Path, require, AsPath.decodeWidth_encodeWidth]

theorem u32At_self : u32At (u32Bytes x) 0 = .ok x := by
  simpa using @u32At_u32Bytes 0 [] [] x rfl

theorem take_med :
    parsed.take fourOctetAs bgpAttrMed optional transitive (u32Bytes x) = .ok { parsed with med := some x } := by
  simp [take, bgpAttrOrigin, bgpAttrAsPath, bgpAttrAs4Path, bgpAttrNextHop, bgpAttrMed, require, u32At_self]

theorem take_localPref :
    parsed.take fourOctetAs bgpAttrLocalPref optional transitive (u32Bytes x) =
      .ok { parsed with localPref := some x } := by
  simp [take, bgpAttrOrigin, bgpAttrAsPath, bgpAttrAs4Path, bgpAttrNextHop, bgpAttrMed, bgpAttrLocalPref, require,
    u32At_self]

/-- A list of records of `n` octets each is read back record by record. -/
theorem records_read_back {γ : Type} {enc : γ → List UInt8} {dec : List UInt8 → γ} {n : Nat} (hn : 0 < n)
    (hlen : ∀ x, (enc x).length = n) (hdec : ∀ x, dec (enc x) = x) {xs : List γ} (h : xs ≠ []) :
    (xs.flatMap enc).length = xs.length * n ∧ (chunks n (xs.flatMap enc)).map dec = xs ∧
    ¬ ((xs.flatMap enc).length = 0 ∨ (xs.flatMap enc).length % n ≠ 0) := by
  have hsize : (xs.flatMap enc).length = xs.length * n := by simp [List.length_flatMap, hlen]
  refine ⟨hsize, ?_, ?_⟩
  · rw [chunks_flatMap hn fun x _ => hlen x]
    simp [Function.comp_def, hdec]
  · rw [hsize, Nat.mul_mod_left]
    simp [h, hn.ne']

theorem take_extCommunities {xs : List ExtCommunity} (h : xs ≠ []) :
    parsed.take fourOctetAs bgpAttrExtCommunities optional transitive (xs.flatMap ExtCommunity.bytes) =
      .ok { parsed with extCommunities := parsed.extCommunities ++ xs } := by
  obtain ⟨-, hread, hok⟩ := records_read_back (by decide) ExtCommunity.length_bytes ExtCommunity.ofBytes_bytes h
  change (require _ _ >>= fun _ => _) = _
  rw [require_pos hok, except_bind_ok, hread]
  rfl

theorem take_clusterList {xs : List Ipv4Address} (h : xs ≠ []) (h32 : xs.length ≤ maxClusterListLen) :
    parsed.take fourOctetAs bgpAttrClusterList true false (xs.flatMap Ipv4Address.octets) =
      .ok { parsed with clusterList := parsed.clusterList ++ xs } := by
  obtain ⟨hlen, hread, hok⟩ := records_read_back (by decide) Ipv4Address.length_octets Ipv4Address.ofOctets_octets h
  have hids : (xs.flatMap Ipv4Address.octets).length / 4 ≤ maxClusterListLen := by omega
  change (require _ _ >>= fun _ => require _ _ >>= fun _ => require _ _ >>= fun _ => _) = _
  rw [require_pos (by decide), except_bind_ok, require_pos hok, except_bind_ok, require_pos hids,
    except_bind_ok, hread]
  rfl

theorem length_pushAttribute (flags typeCode : UInt8) (value : List UInt8) :
    (pushAttribute flags typeCode value).length = (if 255 < value.length then 4 else 3) + value.length := by
  unfold pushAttribute
  split <;> simp [*] <;> omega

theorem pushAttribute_short (flags typeCode : UInt8) (h : value.length ≤ 255) :
    pushAttribute flags typeCode value = [flags, typeCode, UInt8.ofNat value.length] ++ value := by
  rw [pushAttribute, if_neg (by omega)]

theorem flags_extLen (hf : flags = 0x80 ∨ flags = 0x40 ∨ flags = 0xC0) :
    (flags &&& flagExtLen = 0 ∧ (flags ||| flagExtLen) &&& flagExtLen ≠ 0) ∧
    (flags ||| flagExtLen) &&& flagOptional = flags &&& flagOptional ∧
    (flags ||| flagExtLen) &&& flagTransitive = flags &&& flagTransitive := by
  rcases hf with rfl | rfl | rfl <;> decide

variable {parsed' : ParsedAttributes}

theorem next_eq {data : List UInt8} {flags' : UInt8} {hdr : Nat}
    (h0 : byteAt data 0 = .ok flags') (h1 : byteAt data 1 = .ok typeCode) (h2 : 2 ≤ data.length)
    (hlen : valueLen flags' data = .ok (value.length, hdr)) (hend : hdr + value.length ≤ data.length)
    (hslice : bytesAt data hdr (hdr + value.length) = .ok value)
    (hopt : flags' &&& flagOptional = flags &&& flagOptional)
    (htr : flags' &&& flagTransitive = flags &&& flagTransitive) (hseen : typeCode ∉ seen)
    (ht : parsed.take fourOctetAs typeCode (flags &&& flagOptional ≠ 0) (flags &&& flagTransitive ≠ 0) value =
      .ok parsed') :
    next fourOctetAs (parsed, seen) data = .ok ((parsed', seen ++ [typeCode]), hdr + value.length) := by
  unfold next
  rw [require_pos h2, except_bind_ok, h0, except_bind_ok, h1, except_bind_ok, hlen, except_bind_ok]
  dsimp only
  rw [require_pos hend, except_bind_ok, require_pos hseen, except_bind_ok, hslice, except_bind_ok, hopt, htr, ht]
  rfl

theorem next_pushAttribute {rest : List UInt8}
    (hf : flags = 0x80 ∨ flags = 0x40 ∨ flags = 0xC0) (hv : value.length < 65536)
    (hseen : typeCode ∉ seen)
    (ht : parsed.take fourOctetAs typeCode (flags &&& flagOptional ≠ 0) (flags &&& flagTransitive ≠ 0) value =
      .ok parsed') :
    next fourOctetAs (parsed, seen) (pushAttribute flags typeCode value ++ rest) =
      .ok ((parsed', seen ++ [typeCode]), (pushAttribute flags typeCode value).length) := by
  obtain ⟨⟨hext0, hext1⟩, hopt, htr⟩ := flags_extLen hf
  rw [length_pushAttribute]
  unfold pushAttribute
  by_cases hbig : 255 < value.length
  · -- Two length octets, and the flag that says so.
    rw [if_pos hbig, if_pos hbig]
    have hread : u16At ([flags ||| flagExtLen, typeCode] ++ u16Bytes value.length ++ value ++ rest) 2 =
        .ok value.length := by
      simpa [List.append_assoc] using
        @u16At_u16Bytes [flags ||| flagExtLen, typeCode] (value ++ rest) value.length 2 rfl hv
    refine next_eq rfl rfl (by simp) ?_ (by simp; omega) ?_ hopt htr hseen ht
    · rw [valueLen, if_pos hext1, require_pos (by simp), except_bind_ok, hread]
      rfl
    · rw [List.append_assoc _ value]
      exact readSlice_middle _ (by simp) rfl
  · rw [if_neg hbig, if_neg hbig]
    have hbyte : (UInt8.ofNat value.length).toNat = value.length := by rw [UInt8.toNat_ofNat']; omega
    refine next_eq rfl rfl (by simp) ?_ (by simp; omega) ?_ rfl rfl hseen ht
    · rw [valueLen, if_neg (by rw [hext0]; decide), require_pos (by simp), except_bind_ok,
        show byteAt _ 2 = .ok (UInt8.ofNat value.length) from rfl, except_bind_ok, hbyte]
      rfl
    · rw [List.append_assoc _ value]
      exact readSlice_middle _ (by simp) rfl

/-! ## The whole block read back -/

/-- `piece` is absent, or it is one attribute of type `typeCode` that takes `parsed` to `parsed'`. -/
def Writes (fourOctetAs : Bool) (typeCode : UInt8) (piece : List UInt8)
    (parsed parsed' : ParsedAttributes) : Prop :=
  (piece = [] ∧ parsed' = parsed) ∨ ∃ flags value, piece = pushAttribute flags typeCode value ∧
    (flags = 0x80 ∨ flags = 0x40 ∨ flags = 0xC0) ∧ value.length < 65536 ∧
    parsed.take fourOctetAs typeCode (flags &&& flagOptional ≠ 0) (flags &&& flagTransitive ≠ 0) value = .ok parsed'

theorem Writes.scan {piece : List UInt8}
    (h : Writes fourOctetAs typeCode piece parsed parsed') {before : List UInt8} (hs : seen ⊆ before)
    (ht : typeCode ∉ before) (rest : List UInt8) : ∃ seen', seen' ⊆ typeCode :: before ∧
      SystemsLab.scan (next fourOctetAs) (piece ++ rest) 0 (parsed, seen) =
        SystemsLab.scan (next fourOctetAs) rest 0 (parsed', seen') := by
  rcases h with ⟨rfl, rfl⟩ | ⟨flags, value, rfl, hf, hv, htake⟩
  · exact ⟨seen, fun x hx => List.mem_cons_of_mem _ (hs hx), rfl⟩
  · refine ⟨seen ++ [typeCode], ?_, scan_record ?_ (next_pushAttribute hf hv (fun hm => ht (hs hm)) htake)⟩
    · intro x hx
      rcases List.mem_append.mp hx with hx | hx
      · exact List.mem_cons_of_mem _ (hs hx)
      · rw [List.mem_singleton.mp hx]; exact List.mem_cons_self
    · intro hnil
      have hlen := congrArg List.length hnil
      rw [length_pushAttribute] at hlen
      split at hlen <;> simp at hlen

section
variable {a : BgpPathAttributes} {fourOctetAs : Bool} {parsed : ParsedAttributes}

theorem writes_origin :
    Writes fourOctetAs bgpAttrOrigin a.encodeOrigin parsed { parsed with origin := some a.origin } :=
  .inr ⟨flagTransitive, [a.origin.toU8], rfl, by decide, by simp, by cases a.origin <;> rfl⟩

theorem writes_asPath (h : (a.asPath.encodeWidth a.fourOctetAs).length < 65536) :
    Writes a.fourOctetAs bgpAttrAsPath a.encodeAsPath parsed
      { parsed with asPath := some (a.asPath.wire a.fourOctetAs) } :=
  .inr ⟨flagTransitive, _, rfl, by decide, h, take_asPath a.asPath⟩

theorem writes_as4Path (hp : parsed.as4Path = none)
    (h : a.needsAs4Path = true → (a.asPath.encodeWidth true).length < 65536) :
    Writes fourOctetAs bgpAttrAs4Path a.encodeAs4Path parsed
      { parsed with as4Path := if a.needsAs4Path then some (a.asPath.wire true) else none } := by
  unfold BgpPathAttributes.encodeAs4Path
  cases hw : a.needsAs4Path with
  | true =>
    exact .inr ⟨flagOptional ||| flagTransitive, a.asPath.encodeWidth true, rfl, by decide, h hw, take_as4Path _⟩
  | false => exact .inl ⟨rfl, by simp [← hp]⟩

theorem writes_nextHop :
    Writes fourOctetAs bgpAttrNextHop (a.encodeNextHop true) parsed { parsed with nextHop := some a.nextHop } :=
  .inr ⟨flagTransitive, a.nextHop.octets, rfl, by decide, by simp, rfl⟩

theorem writes_med (hp : parsed.med = none) :
    Writes fourOctetAs bgpAttrMed a.encodeMed parsed { parsed with med := a.med } := by
  unfold BgpPathAttributes.encodeMed
  cases a.med with
  | none => exact .inl ⟨rfl, by simp [← hp]⟩
  | some x =>
    refine .inr ⟨flagOptional, u32Bytes x, ?_, by decide, by simp, take_med x⟩
    rw [pushAttribute_short _ _ (by simp), length_u32Bytes]
    rfl

theorem writes_localPref (hp : parsed.localPref = none) :
    Writes fourOctetAs bgpAttrLocalPref a.encodeLocalPref parsed { parsed with localPref := a.localPref } := by
  unfold BgpPathAttributes.encodeLocalPref
  cases a.localPref with
  | none => exact .inl ⟨rfl, by simp [← hp]⟩
  | some x =>
    refine .inr ⟨flagTransitive, u32Bytes x, ?_, by decide, by simp, take_localPref x⟩
    rw [pushAttribute_short _ _ (by simp), length_u32Bytes]
    rfl

theorem writes_atomicAggregate (hp : parsed.atomicAggregate = false) :
    Writes fourOctetAs bgpAttrAtomicAggregate a.encodeAtomicAggregate parsed
      { parsed with atomicAggregate := a.atomicAggregate } := by
  unfold BgpPathAttributes.encodeAtomicAggregate
  cases a.atomicAggregate with
  | false => exact .inl ⟨rfl, by simp [← hp]⟩
  | true => exact .inr ⟨flagTransitive, [], rfl, by decide, by simp, rfl⟩

theorem writes_originatorId (hp : parsed.originatorId = none) :
    Writes fourOctetAs bgpAttrOriginatorId a.encodeOriginatorId parsed
      { parsed with originatorId := a.originatorId } := by
  unfold BgpPathAttributes.encodeOriginatorId
  cases a.originatorId with
  | none => exact .inl ⟨rfl, by simp [← hp]⟩
  | some x => exact .inr ⟨flagOptional, x.octets, rfl, by decide, by simp, rfl⟩

theorem writes_clusterList (hp : parsed.clusterList = []) (h : a.clusterList.length ≤ maxClusterListLen) :
    Writes fourOctetAs bgpAttrClusterList a.encodeClusterList parsed
      { parsed with clusterList := a.clusterList } := by
  unfold BgpPathAttributes.encodeClusterList
  cases hc : a.clusterList with
  | nil => exact .inl ⟨rfl, by simp [← hp]⟩
  | cons x xs =>
    rw [hc] at h
    have htake := @take_clusterList fourOctetAs parsed (x :: xs) (by simp) h
    rw [hp] at htake
    refine .inr ⟨flagOptional, (x :: xs).flatMap Ipv4Address.octets, rfl, by decide, ?_, htake⟩
    simp only [maxClusterListLen, List.length_cons] at h
    simp [List.length_flatMap]; omega

theorem writes_extCommunities (hp : parsed.extCommunities = [])
    (h : (a.extCommunities.flatMap ExtCommunity.bytes).length < 65536) :
    Writes fourOctetAs bgpAttrExtCommunities a.encodeExtCommunities parsed
      { parsed with extCommunities := a.extCommunities } := by
  unfold BgpPathAttributes.encodeExtCommunities
  cases hc : a.extCommunities with
  | nil => exact .inl ⟨rfl, by simp [← hp]⟩
  | cons x xs =>
    rw [hc] at h
    have htake : parsed.take fourOctetAs bgpAttrExtCommunities true true
        ((x :: xs).flatMap ExtCommunity.bytes) = _ :=
      take_extCommunities (by simp)
    rw [hp] at htake
    exact .inr ⟨flagOptional ||| flagTransitive, (x :: xs).flatMap ExtCommunity.bytes, rfl, by decide, h, htake⟩

end

/-- What is read of the attributes `a`, written for an UPDATE that announces IPv4 prefixes. -/
def ofAttributes (a : BgpPathAttributes) : ParsedAttributes where
  origin := some a.origin
  asPath := some (a.asPath.wire a.fourOctetAs)
  as4Path := if a.needsAs4Path then some (a.asPath.wire true) else none
  nextHop := some a.nextHop
  med := a.med
  localPref := a.localPref
  atomicAggregate := a.atomicAggregate
  extCommunities := a.extCommunities
  originatorId := a.originatorId
  clusterList := a.clusterList

theorem parse_encode {a : BgpPathAttributes} (hreach : a.mpReach = none) (hunreach : a.mpUnreach = none)
    (hclusters : a.clusterList.length ≤ maxClusterListLen) (hsize : a.encode.length < 65536) :
    parse a.encode a.fourOctetAs = .ok (ofAttributes a) := by
  have henc : a.encode = a.encodeOrigin ++
      (a.encodeAsPath ++ (a.encodeAs4Path ++ (a.encodeNextHop true ++ (a.encodeMed ++
      (a.encodeLocalPref ++ (a.encodeAtomicAggregate ++ (a.encodeOriginatorId ++ (a.encodeClusterList ++
        (a.encodeExtCommunities ++ [])))))))))  := by
    simp [BgpPathAttributes.encode, BgpPathAttributes.encodeFor, BgpPathAttributes.isMpWithdrawOnly,
      BgpPathAttributes.encodeMpReach, BgpPathAttributes.encodeMpUnreach, hreach, hunreach]
  rw [henc] at hsize
  simp only [List.length_append] at hsize
  have hpath : (a.asPath.encodeWidth a.fourOctetAs).length < 65536 := by
    rw [BgpPathAttributes.encodeAsPath, length_pushAttribute] at hsize
    omega
  have hpath4 : a.needsAs4Path = true → (a.asPath.encodeWidth true).length < 65536 := fun hw => by
    rw [BgpPathAttributes.encodeAs4Path, if_pos hw, length_pushAttribute] at hsize
    omega
  have hext : (a.extCommunities.flatMap ExtCommunity.bytes).length < 65536 := by
    by_cases he : a.extCommunities.isEmpty = true
    · rw [List.isEmpty_iff.mp he]; simp
    · rw [BgpPathAttributes.encodeExtCommunities, if_neg he, length_pushAttribute] at hsize
      omega
  -- One attribute after the other in the order they are written, with what the reader holds in between.
  let p1 : ParsedAttributes := { origin := some a.origin }
  let p2 : ParsedAttributes := { p1 with asPath := some (a.asPath.wire a.fourOctetAs) }
  let p3 : ParsedAttributes := { p2 with as4Path := if a.needsAs4Path then some (a.asPath.wire true) else none }
  let p4 : ParsedAttributes := { p3 with nextHop := some a.nextHop }
  let p5 : ParsedAttributes := { p4 with med := a.med }
  let p6 : ParsedAttributes := { p5 with localPref := a.localPref }
  let p7 : ParsedAttributes := { p6 with atomicAggregate := a.atomicAggregate }
  let p8 : ParsedAttributes := { p7 with originatorId := a.originatorId }
  let p9 : ParsedAttributes := { p8 with clusterList := a.clusterList }
  obtain ⟨s1, hs1, e1⟩ := (@writes_origin a a.fourOctetAs {}).scan (List.Subset.refl []) (by decide) _
  obtain ⟨s2, hs2, e2⟩ := (@writes_asPath a p1 hpath).scan hs1 (by decide) _
  obtain ⟨s3, hs3, e3⟩ := (@writes_as4Path a a.fourOctetAs p2 rfl hpath4).scan hs2 (by decide) _
  obtain ⟨s4, hs4, e4⟩ := (@writes_nextHop a a.fourOctetAs p3).scan hs3 (by decide) _
  obtain ⟨s5, hs5, e5⟩ := (@writes_med a a.fourOctetAs p4 rfl).scan hs4 (by decide) _
  obtain ⟨s6, hs6, e6⟩ := (@writes_localPref a a.fourOctetAs p5 rfl).scan hs5 (by decide) _
  obtain ⟨s7, hs7, e7⟩ := (@writes_atomicAggregate a a.fourOctetAs p6 rfl).scan hs6 (by decide) _
  obtain ⟨s8, hs8, e8⟩ := (@writes_originatorId a a.fourOctetAs p7 rfl).scan hs7 (by decide) _
  obtain ⟨s9, hs9, e9⟩ := (@writes_clusterList a a.fourOctetAs p8 rfl hclusters).scan hs8 (by decide) _
  obtain ⟨s10, -, e10⟩ := (@writes_extCommunities a a.fourOctetAs p9 rfl hext).scan hs9 (by decide) []
  rw [parse, henc, e1, e2, e3, e4, e5, e6, e7, e8, e9, e10, scan_nil]
  rfl

theorem intoAttributes_ofAttributes (a : BgpPathAttributes) :
    (ofAttributes a).intoAttributes true false = .ok a.received := by
  cases h : a.needsAs4Path <;> simp only [intoAttributes, ofAttributes, BgpPathAttributes.received, h] <;> rfl

/-! ## Reads inside the bytes -/

theorem avoids_take (fourOctetAs : Bool) (typeCode : UInt8) (optional transitive : Bool)
    (value : List UInt8) (parsed : ParsedAttributes) :
    Avoids .index (parsed.take fourOctetAs typeCode optional transitive value) := by
  simp only [take, avoids_bind, avoids_ite, avoids_require, avoids_okOr, updateError_ne_index, false_implies,
    true_and, require_eq_ok, avoids_byteAt, except_pure_eq, avoids_ok, implies_true, and_true,
    AsPath.avoids_decodeWidth, MpReachNlri.avoids_parseValue, MpUnreachNlri.avoids_parseValue]
  grind [avoids_u32At, avoids_addressAt]

theorem avoids_parse (data : List UInt8) (fourOctetAs : Bool) : Avoids .index (parse data fourOctetAs) := by
  refine avoids_bind.mpr ⟨avoids_scan (fun s x l => ?_) data 0 _, by simp⟩
  simp only [next, valueLen, avoids_bind, avoids_ite, avoids_require, updateError_ne_index, false_implies, true_and,
    require_eq_ok, avoids_byteAt, avoids_readSlice, except_pure_eq, avoids_ok, implies_true, and_true, avoids_take]
  grind [avoids_u16At]

end ParsedAttributes

end SystemsLab.Bgp
