import SystemsLab.Bgp.Attributes

/-!
# Messages and their frames

UPDATE bodies, the 19-byte header, and the framer. The sender writes the length modulo 65536; the receiver takes
frames of 19 to 4096 bytes only.
-/

namespace SystemsLab.Bgp

def bgpHeaderLen : Nat := 19
def bgpMaxMessageLen : Nat := 4096
def bgpMarker : List UInt8 := List.replicate 16 0xFF

def bgpMsgOpen : UInt8 := 1
def bgpMsgUpdate : UInt8 := 2
def bgpMsgNotification : UInt8 := 3
def bgpMsgKeepalive : UInt8 := 4
def bgpMsgRouteRefresh : UInt8 := 5

/-! ## UPDATE -/

structure BgpUpdateMessage where
  withdrawn : List Ipv4Prefix
  attributes : Option BgpPathAttributes
  nlri : List Ipv4Prefix
deriving DecidableEq

variable {u : BgpUpdateMessage} {fourOctetAs : Bool}

namespace BgpUpdateMessage

def announce (attributes : BgpPathAttributes) (nlri : List Ipv4Prefix) : BgpUpdateMessage :=
  ⟨[], some attributes, nlri⟩

def withdraw (withdrawn : List Ipv4Prefix) : BgpUpdateMessage := ⟨withdrawn, none, []⟩

def encodeAttributes (u : BgpUpdateMessage) : List UInt8 :=
  match u.attributes with
  | some a =>
    if !u.nlri.isEmpty || a.mpReach.isSome || a.mpUnreach.isSome then a.encodeFor (!u.nlri.isEmpty)
    else []
  | none => []

def encodeBody (u : BgpUpdateMessage) : List UInt8 :=
  let withdrawn := Ipv4Prefix.encodeList u.withdrawn
  let attrs := u.encodeAttributes
  u16Bytes withdrawn.length ++ (withdrawn ++ (u16Bytes attrs.length ++ (attrs ++ Ipv4Prefix.encodeList u.nlri)))

def parseBodyWidth (body : List UInt8) (fourOctetAs : Bool) : Except Fault BgpUpdateMessage := do
  require (4 ≤ body.length)
    (updateError bgpSubMalformedAttributeList "UPDATE body shorter than the two length fields")
  let withdrawnLen ← u16At body 0
  require (2 + withdrawnLen + 2 ≤ body.length) (updateError bgpSubMalformedAttributeList
    "withdrawn routes length runs past the end of the UPDATE")
  let withdrawn ← Ipv4Prefix.decodeList (← bytesAt body 2 (2 + withdrawnLen)) bgpSubInvalidNetworkField
  let attrLen ← u16At body (2 + withdrawnLen)
  let attrStart := 2 + withdrawnLen + 2
  let attrEnd := attrStart + attrLen
  require (attrEnd ≤ body.length) (updateError bgpSubMalformedAttributeList
    "path attribute length runs past the end of the UPDATE")
  let parsed ← ParsedAttributes.parse (← bytesAt body attrStart attrEnd) fourOctetAs
  let nlri ← Ipv4Prefix.decodeList (← bytesAt body attrEnd body.length) bgpSubInvalidNetworkField
  let announcesMp := parsed.mpReach.isSome
  let describesRoutes := !nlri.isEmpty || announcesMp || parsed.mpUnreach.isSome
  if describesRoutes then
    let attributes ← parsed.intoAttributes (!nlri.isEmpty) announcesMp
    pure ⟨withdrawn, some attributes, nlri⟩
  else
    pure ⟨withdrawn, none, nlri⟩

/-- IPv4 routes only, a cluster list the reader accepts, and attributes beside every announced prefix. -/
structure Plain (fourOctetAs : Bool) (u : BgpUpdateMessage) : Prop where
  mpReach : ∀ a ∈ u.attributes, a.mpReach = none
  mpUnreach : ∀ a ∈ u.attributes, a.mpUnreach = none
  clusters : ∀ a ∈ u.attributes, a.clusterList.length ≤ maxClusterListLen
  width : ∀ a ∈ u.attributes, a.fourOctetAs = fourOctetAs
  described : u.nlri ≠ [] → ∃ a, u.attributes = some a

theorem Plain.parse_encodeAttributes (h : u.Plain fourOctetAs)
    (hsize : u.encodeAttributes.length < 65536) :
    ∃ parsed, ParsedAttributes.parse u.encodeAttributes fourOctetAs = .ok parsed ∧
      parsed.mpReach = none ∧ parsed.mpUnreach = none ∧
      (u.nlri ≠ [] → ∃ a, u.attributes = some a ∧ parsed.intoAttributes true false = .ok a.received) := by
  by_cases hn : u.nlri = []
  · have hnil : u.encodeAttributes = [] := by
      unfold encodeAttributes
      cases ha : u.attributes with
      | none => rfl
      | some a => simp [hn, h.mpReach a ha, h.mpUnreach a ha]
    rw [hnil]
    exact ⟨{}, rfl, rfl, rfl, fun hne => absurd hn hne⟩
  · obtain ⟨a, ha⟩ := h.described hn
    have henc : u.encodeAttributes = a.encode := by
      simp [encodeAttributes, ha, List.isEmpty_eq_false_iff.mpr hn, BgpPathAttributes.encode]
    rw [henc] at hsize ⊢
    refine ⟨.ofAttributes a, ?_, rfl, rfl, fun _ => ⟨a, ha, ParsedAttributes.intoAttributes_ofAttributes a⟩⟩
    rw [← h.width a ha]
    exact ParsedAttributes.parse_encode (h.mpReach a ha) (h.mpUnreach a ha) (h.clusters a ha) hsize

theorem Plain.parseBodyWidth_encodeBody (h : u.Plain fourOctetAs) (hsize : u.encodeBody.length < 65536) :
    parseBodyWidth u.encodeBody fourOctetAs =
      .ok ⟨u.withdrawn, if u.nlri = [] then none else u.attributes.map (·.received), u.nlri⟩ := by
  have hlen : u.encodeBody.length = 4 + (Ipv4Prefix.encodeList u.withdrawn).length + u.encodeAttributes.length +
      (Ipv4Prefix.encodeList u.nlri).length := by
    simp only [encodeBody, List.length_append, length_u16Bytes]; omega
  obtain ⟨parsed, hparse, hreach, hunreach, hinto⟩ := h.parse_encodeAttributes (by omega)
  generalize hW : Ipv4Prefix.encodeList u.withdrawn = W at hlen
  generalize hA : u.encodeAttributes = A at hlen hparse
  generalize hN : Ipv4Prefix.encodeList u.nlri = N at hlen
  have hbody : u.encodeBody = u16Bytes W.length ++ (W ++ (u16Bytes A.length ++ (A ++ N))) := by
    rw [encodeBody, hW, hA, hN]
  have h1 : u16At u.encodeBody 0 = .ok W.length := by
    rw [hbody]
    simpa using @u16At_u16Bytes [] (W ++ (u16Bytes A.length ++ (A ++ N))) W.length 0 rfl (by omega)
  have h2 : bytesAt u.encodeBody 2 (2 + W.length) = .ok W := by
    rw [hbody]
    exact readSlice_middle _ (length_u16Bytes _).symm rfl
  have h3 : u16At u.encodeBody (2 + W.length) = .ok A.length := by
    rw [hbody, ← List.append_assoc]
    exact u16At_u16Bytes (by simp) (by omega)
  have h4 : bytesAt u.encodeBody (2 + W.length + 2) (2 + W.length + 2 + A.length) = .ok A := by
    rw [hbody, ← List.append_assoc, ← List.append_assoc]
    exact readSlice_middle _ (by simp; omega) rfl
  have h5 : bytesAt u.encodeBody (2 + W.length + 2 + A.length) u.encodeBody.length = .ok N := by
    rw [hlen, hbody, ← List.append_assoc, ← List.append_assoc, ← List.append_assoc]
    exact readSlice_back _ (by simp; omega) (by omega)
  have hdecode : ∀ ps, Ipv4Prefix.decodeList (Ipv4Prefix.encodeList ps) bgpSubInvalidNetworkField = .ok ps :=
    fun ps => Ipv4Prefix.decodeList_encodeList ps _
  unfold parseBodyWidth
  rw [require_pos (by omega), except_bind_ok, h1, except_bind_ok, require_pos (by omega), except_bind_ok, h2,
    except_bind_ok, ← hW, hdecode, except_bind_ok, hW, h3, except_bind_ok]
  simp only
  rw [require_pos (by omega), except_bind_ok, h4, except_bind_ok, hparse, except_bind_ok, h5, except_bind_ok, ← hN,
    hdecode, except_bind_ok]
  simp only [hreach, hunreach, Option.isSome_none, Bool.or_false]
  by_cases hn : u.nlri = []
  · simp [hn]
  · obtain ⟨a, ha, hinto⟩ := hinto hn
    rw [List.isEmpty_eq_false_iff.mpr hn, if_neg hn, ha]
    simp only [Bool.not_false, if_true, hinto, except_bind_ok]
    rfl

theorem avoids_parseBodyWidth (body : List UInt8) (fourOctetAs : Bool) :
    Avoids .index (parseBodyWidth body fourOctetAs) := by
  have hinto : ∀ (parsed : ParsedAttributes) hasIpv4Nlri announcesMp,
      Avoids .index (parsed.intoAttributes hasIpv4Nlri announcesMp) := by
    rintro ⟨_ | _, _ | _, _, _ | _⟩ _ _ <;> simp [ParsedAttributes.intoAttributes, ParsedAttributes.missing]
  simp only [parseBodyWidth, avoids_bind, avoids_ite, avoids_require, updateError_ne_index, false_implies, true_and,
    require_eq_ok, avoids_readSlice, except_pure_eq, avoids_ok, implies_true, and_true,
    Ipv4Prefix.avoids_decodeList, ParsedAttributes.avoids_parse, hinto]
  grind [avoids_u16At]

theorem update_codec_round_trip :
    (∀ u : BgpUpdateMessage, u.Plain true → (u.attributes.isSome ↔ u.nlri ≠ []) →
      (∀ a ∈ u.attributes, ∀ seg ∈ a.asPath.segments, seg.asns ≠ []) → u.encodeBody.length ≤ 4077 →
      parseBodyWidth u.encodeBody true = .ok { u with
        attributes := u.attributes.map fun a => { a with asPath := a.asPath.splitLong, fourOctetAs := false } }) ∧
    ∀ body fourOctetAs, parseBodyWidth body fourOctetAs ≠ .error .index := by
  refine ⟨fun u hu hattrs hseg hsize => ?_, avoids_parseBodyWidth⟩
  rw [hu.parseBodyWidth_encodeBody (by omega)]
  obtain ⟨withdrawn, attributes, nlri⟩ := u
  cases attributes with
  | none => simp
  | some a =>
    have hn : nlri ≠ [] := hattrs.mp rfl
    have hwidth := hu.width a rfl
    simp only [if_neg hn, Option.map_some, BgpPathAttributes.received, BgpPathAttributes.needsAs4Path, hwidth,
      Bool.not_true, Bool.false_and, Bool.false_eq_true, if_false,
      AsPath.wire_true (hseg a rfl), ← hu.mpReach a rfl, ← hu.mpUnreach a rfl]

end BgpUpdateMessage

/-! ## The other messages -/

structure BgpOpenMessage where
  version : UInt8
  myAs : UInt16
  holdTime : UInt16
  bgpId : Ipv4Address
  optParams : List UInt8
deriving DecidableEq

def BgpOpenMessage.encodeBody (o : BgpOpenMessage) : List UInt8 :=
  [o.version] ++ u16Bytes o.myAs.toNat ++ u16Bytes o.holdTime.toNat ++ o.bgpId.octets ++
    [UInt8.ofNat o.optParams.length] ++ o.optParams

def BgpOpenMessage.parseBody (body : List UInt8) : Except Fault BgpOpenMessage := do
  require (10 ≤ body.length) (headerError bgpSubBadMessageLength "OPEN body shorter than the 10-byte fixed part")
  let optLen ← byteAt body 9
  require (10 + optLen.toNat ≤ body.length) (openError bgpSubUnsupportedOptParam
    "optional parameter length runs past the end of the OPEN")
  let version ← byteAt body 0
  let myAs ← u16At body 1
  let holdTime ← u16At body 3
  let bgpId ← addressAt body 5
  let optParams ← bytesAt body 10 (10 + optLen.toNat)
  pure ⟨version, UInt16.ofNat myAs, UInt16.ofNat holdTime, bgpId, optParams⟩

structure BgpNotificationMessage where
  errorCode : UInt8
  errorSubcode : UInt8
  data : List UInt8
deriving DecidableEq

def BgpNotificationMessage.new (errorCode errorSubcode : UInt8) : BgpNotificationMessage :=
  ⟨errorCode, errorSubcode, []⟩

structure AfiSafi where
  afi : UInt16
  safi : UInt8
deriving DecidableEq

def AfiSafi.ipv4Unicast : AfiSafi := ⟨1, 1⟩

inductive BgpRouteRefreshSubtype
  | normal
  | beginning
  | finish
  | unknown (code : UInt8)
deriving DecidableEq

namespace BgpRouteRefreshSubtype

def code : BgpRouteRefreshSubtype → UInt8
  | .normal => 0
  | .beginning => 1
  | .finish => 2
  | .unknown code => code

def fromCode (code : UInt8) : BgpRouteRefreshSubtype :=
  if code = 0 then .normal else if code = 1 then .beginning else if code = 2 then .finish else .unknown code

end BgpRouteRefreshSubtype

structure BgpRouteRefreshMessage where
  family : AfiSafi
  subtype : BgpRouteRefreshSubtype
deriving DecidableEq

def BgpRouteRefreshMessage.encodeBody (m : BgpRouteRefreshMessage) : List UInt8 :=
  u16Bytes m.family.afi.toNat ++ [m.subtype.code, m.family.safi]

def BgpRouteRefreshMessage.parseBody (body : List UInt8) : Except Fault BgpRouteRefreshMessage := do
  let size := body.length
  require (size = 4) (headerError bgpSubBadMessageLength s!"ROUTE-REFRESH body is {size} bytes, must be exactly 4")
  let afi ← u16At body 0
  let safi ← byteAt body 3
  let subtype ← byteAt body 2
  pure ⟨⟨UInt16.ofNat afi, safi⟩, .fromCode subtype⟩

/-! ## Frames -/

inductive BgpPdu
  | open (m : BgpOpenMessage)
  | update (m : BgpUpdateMessage)
  | notification (m : BgpNotificationMessage)
  | keepalive
  | routeRefresh (m : BgpRouteRefreshMessage)
deriving DecidableEq

namespace BgpPdu

def typeCode : BgpPdu → UInt8
  | .open _ => bgpMsgOpen
  | .update _ => bgpMsgUpdate
  | .notification _ => bgpMsgNotification
  | .keepalive => bgpMsgKeepalive
  | .routeRefresh _ => bgpMsgRouteRefresh

def body : BgpPdu → List UInt8
  | .open m => m.encodeBody
  | .update m => m.encodeBody
  | .notification m => [m.errorCode, m.errorSubcode] ++ m.data
  | .keepalive => []
  | .routeRefresh m => m.encodeBody

def serialize (pdu : BgpPdu) : List UInt8 :=
  bgpMarker ++ (u16Bytes (bgpHeaderLen + pdu.body.length) ++ (pdu.typeCode :: pdu.body))

end BgpPdu

def minLen (msgType : UInt8) : Option Nat :=
  if msgType = bgpMsgOpen then some (bgpHeaderLen + 10)
  else if msgType = bgpMsgUpdate then some (bgpHeaderLen + 4)
  else if msgType = bgpMsgNotification then some (bgpHeaderLen + 2)
  else if msgType = bgpMsgKeepalive then some bgpHeaderLen
  else if msgType = bgpMsgRouteRefresh then some bgpHeaderLen
  else none

def unsupportedType (msgType : UInt8) : Fault :=
  headerError bgpSubBadMessageType s!"unsupported message type {msgType}"

def notSynchronized : Fault :=
  headerError bgpSubConnectionNotSynchronized "marker is not the all-ones synchronisation pattern"

def badLength (length : Nat) : Fault :=
  headerError bgpSubBadMessageLength s!"length field {length} is outside 19..=4096"

def parseBgpHeader (frame : List UInt8) : Except Fault (UInt8 × List UInt8) := do
  let size := frame.length
  require (bgpHeaderLen ≤ size)
    (headerError bgpSubBadMessageLength s!"frame of {size} bytes is shorter than the header")
  require ((← bytesAt frame 0 16) = bgpMarker) notSynchronized
  let length ← u16At frame 16
  let msgType ← byteAt frame 18
  require (bgpHeaderLen ≤ length ∧ length ≤ bgpMaxMessageLen) (badLength length)
  let least ← okOr (unsupportedType msgType) (minLen msgType)
  require (least ≤ length)
    (headerError bgpSubBadMessageLength s!"length {length} too small for message type {msgType}")
  require (size = length) (headerError bgpSubBadMessageLength
    s!"frame carries {size} bytes but the length field says {length}")
  let body ← bytesAt frame bgpHeaderLen length
  pure (msgType, body)

def BgpPdu.parseWidth (frame : List UInt8) (fourOctetAs : Bool) : Except Fault BgpPdu := do
  let (msgType, body) ← parseBgpHeader frame
  if msgType = bgpMsgOpen then
    pure (.open (← BgpOpenMessage.parseBody body))
  else if msgType = bgpMsgUpdate then
    pure (.update (← BgpUpdateMessage.parseBodyWidth body fourOctetAs))
  else if msgType = bgpMsgNotification then
    require (2 ≤ body.length)
      (headerError bgpSubBadMessageLength "NOTIFICATION shorter than its two-byte error code")
    let code ← byteAt body 0
    let subcode ← byteAt body 1
    let data ← bytesAt body 2 body.length
    pure (.notification ⟨code, subcode, data⟩)
  else if msgType = bgpMsgKeepalive then
    require (body.length = 0) (headerError bgpSubBadMessageLength "KEEPALIVE must be exactly 19 bytes")
    pure .keepalive
  else if msgType = bgpMsgRouteRefresh then
    pure (.routeRefresh (← BgpRouteRefreshMessage.parseBody body))
  else
    throw (unsupportedType msgType)

/-! ## The framer -/

structure BgpFramer where
  buf : List UInt8
  capacity : Nat
  bytesReceived : Nat
  messagesDecoded : Nat
deriving DecidableEq

namespace BgpFramer

def bgpFramerCapacity : Nat := 2 * bgpMaxMessageLen

def withCapacity (capacity : Nat) : BgpFramer := ⟨[], max capacity bgpMaxMessageLen, 0, 0⟩

def new : BgpFramer := withCapacity bgpFramerCapacity

def push (f : BgpFramer) (data : List UInt8) : Except Fault BgpFramer := do
  let capacity := f.capacity
  require (f.buf.length + data.length ≤ capacity) (.parse ⟨bgpErrCease, 0,
    s!"reassembly buffer would exceed {capacity} bytes; peer is not framing BGP"⟩)
  pure { f with buf := f.buf ++ data, bytesReceived := f.bytesReceived + data.length }

def nextFrame (f : BgpFramer) : Except Fault (Option (List UInt8) × BgpFramer) := do
  if f.buf.length < bgpHeaderLen then
    pure (none, f)
  else
    require ((← bytesAt f.buf 0 16) = bgpMarker) notSynchronized
    let length ← u16At f.buf 16
    require (bgpHeaderLen ≤ length ∧ length ≤ bgpMaxMessageLen) (badLength length)
    if f.buf.length < length then
      pure (none, f)
    else
      pure (some (f.buf.take length), { f with buf := f.buf.drop length, messagesDecoded := f.messagesDecoded + 1 })

end BgpFramer

/-! ## What is received -/

/-- A fresh framer hands the frame back whole, and this speaker's own parser accepts it. -/
def Received (fourOctetAs : Bool) (frame : List UInt8) : Prop :=
  (∃ f f', BgpFramer.new.push frame = .ok f ∧ f.nextFrame = .ok (some frame, f')) ∧
    (bgpHeaderLen ≤ frame.length ∧ frame.length ≤ bgpMaxMessageLen) ∧ u16At frame 16 = .ok frame.length ∧
    ∃ pdu, BgpPdu.parseWidth frame fourOctetAs = .ok pdu

variable (pdu : BgpPdu)

namespace BgpPdu

theorem length_serialize : pdu.serialize.length = bgpHeaderLen + pdu.body.length := by
  simp only [serialize, bgpMarker, bgpHeaderLen, List.length_append, List.length_replicate, length_u16Bytes,
    List.length_cons]
  omega

theorem marker_serialize : bytesAt pdu.serialize 0 16 = .ok bgpMarker := readSlice_front _ rfl

theorem u16At_serialize {pdu : BgpPdu} (h : pdu.serialize.length < 65536) :
    u16At pdu.serialize 16 = .ok pdu.serialize.length := by
  rw [length_serialize] at h ⊢
  exact u16At_u16Bytes rfl h

theorem body_serialize : bytesAt pdu.serialize bgpHeaderLen pdu.serialize.length = .ok pdu.body := by
  have hsplit : pdu.serialize =
      (bgpMarker ++ (u16Bytes (bgpHeaderLen + pdu.body.length) ++ [pdu.typeCode])) ++ pdu.body := by
    simp [serialize]
  rw [length_serialize, hsplit]
  exact readSlice_back _ (by simp [bgpMarker, bgpHeaderLen]) rfl

end BgpPdu

theorem typeAt_serialize : byteAt pdu.serialize 18 = .ok pdu.typeCode := by
  have hsplit : pdu.serialize =
      (bgpMarker ++ u16Bytes (bgpHeaderLen + pdu.body.length)) ++ (pdu.typeCode :: pdu.body) := by
    simp [BgpPdu.serialize]
  have hlen : (bgpMarker ++ u16Bytes (bgpHeaderLen + pdu.body.length)).length = 18 := by simp [bgpMarker]
  rw [byteAt, readAt, hsplit, List.getElem?_append_right (by omega), hlen]
  rfl

theorem nextFrame_serialize {pdu : BgpPdu} (h : pdu.serialize.length ≤ bgpMaxMessageLen) :
    ∃ f f', BgpFramer.new.push pdu.serialize = .ok f ∧ f.nextFrame = .ok (some pdu.serialize, f') := by
  have hlow : bgpHeaderLen ≤ pdu.serialize.length := by rw [pdu.length_serialize]; omega
  simp only [bgpMaxMessageLen] at h
  let f : BgpFramer := ⟨pdu.serialize, 8192, pdu.serialize.length, 0⟩
  let f' : BgpFramer := ⟨pdu.serialize.drop pdu.serialize.length, 8192, pdu.serialize.length, 1⟩
  have hpush : BgpFramer.new.push pdu.serialize = .ok f := by
    have hcap : BgpFramer.new.buf.length + pdu.serialize.length ≤ BgpFramer.new.capacity := by
      rw [show BgpFramer.new.capacity = 8192 from rfl, show BgpFramer.new.buf.length = 0 from rfl]; omega
    change (require _ _ >>= fun _ => _) = _
    rw [require_pos hcap, except_bind_ok]
    simp [f, BgpFramer.new, BgpFramer.withCapacity, BgpFramer.bgpFramerCapacity, bgpMaxMessageLen]
  have hbounds : bgpHeaderLen ≤ pdu.serialize.length ∧ pdu.serialize.length ≤ bgpMaxMessageLen := ⟨hlow, h⟩
  refine ⟨f, f', hpush, ?_⟩
  simp only [BgpFramer.nextFrame, f, f', if_neg (Nat.not_lt.mpr hlow), pdu.marker_serialize,
    BgpPdu.u16At_serialize (show pdu.serialize.length < 65536 by omega), except_bind_ok, require_pos,
    require_pos hbounds, lt_irrefl, if_false, List.take_length]
  rfl

theorem length_of_nextFrame {frame : List UInt8} {f f' : BgpFramer} (hpush : BgpFramer.new.push frame = .ok f)
    (hnext : f.nextFrame = .ok (some frame, f')) : frame.length ≤ bgpMaxMessageLen := by
  have hbuf : f.buf = frame := by
    simp only [BgpFramer.push, steps_ok, exists_const] at hpush
    obtain ⟨-, rfl⟩ := hpush
    rfl
  simp only [BgpFramer.nextFrame, hbuf] at hnext
  by_cases hshort : frame.length < bgpHeaderLen
  · simp [if_pos hshort] at hnext
  · simp only [if_neg hshort, steps_ok, exists_const] at hnext
    obtain ⟨-, -, -, length, -, hlen, hnext⟩ := hnext
    by_cases hpart : frame.length < length
    · simp [if_pos hpart] at hnext
    · simp only [if_neg hpart, Except.ok.injEq, Prod.mk.injEq, Option.some.injEq] at hnext
      have := congrArg List.length hnext.1
      rw [List.length_take] at this
      omega

theorem received_iff (hu : u.Plain fourOctetAs) :
    Received fourOctetAs (BgpPdu.update u).serialize ↔ (BgpPdu.update u).serialize.length ≤ bgpMaxMessageLen := by
  refine ⟨fun ⟨⟨_, _, hpush, hnext⟩, _⟩ => length_of_nextFrame hpush hnext, fun h => ?_⟩
  have hlen := BgpPdu.length_serialize (.update u)
  have hlow : bgpHeaderLen ≤ (BgpPdu.update u).serialize.length := by rw [hlen]; omega
  have hmin : bgpHeaderLen + 4 ≤ (BgpPdu.update u).serialize.length := by
    rw [hlen]
    simp [BgpPdu.body, BgpUpdateMessage.encodeBody]
    omega
  have hsize : (BgpPdu.update u).serialize.length < 65536 := by
    simp only [bgpMaxMessageLen] at h; omega
  obtain ⟨m, hparse⟩ : ∃ m, BgpUpdateMessage.parseBodyWidth u.encodeBody fourOctetAs = .ok m :=
    ⟨_, hu.parseBodyWidth_encodeBody (by rw [hlen] at hsize; simp only [BgpPdu.body] at hsize; omega)⟩
  refine ⟨nextFrame_serialize h, ⟨hlow, h⟩, BgpPdu.u16At_serialize hsize, .update m, ?_⟩
  have hheader : parseBgpHeader (BgpPdu.update u).serialize = .ok (bgpMsgUpdate, u.encodeBody) := by
    unfold parseBgpHeader
    simp only [require_pos hlow, except_bind_ok, BgpPdu.marker_serialize, require_pos, BgpPdu.u16At_serialize hsize,
      typeAt_serialize, require_pos (show bgpHeaderLen ≤ _ ∧ _ ≤ bgpMaxMessageLen from ⟨hlow, h⟩)]
    rw [show okOr (unsupportedType (BgpPdu.update u).typeCode) (minLen (BgpPdu.update u).typeCode) =
      .ok (bgpHeaderLen + 4) from rfl]
    simp only [except_bind_ok, require_pos hmin, BgpPdu.body_serialize]
    rfl
  rw [BgpPdu.parseWidth, hheader, except_bind_ok]
  change (BgpUpdateMessage.parseBodyWidth u.encodeBody fourOctetAs >>= fun m => pure (BgpPdu.update m)) = _
  rw [hparse]
  rfl

end SystemsLab.Bgp
