import SystemsLab.Tcp.Segment

/-!
# Reading a segment

`TcpSegment::parse`, the inverse of the serialiser on the option lists that it
writes out in full.
-/

namespace SystemsLab.Tcp

open Net (u16Bytes verifyIpv4TransportChecksum)

variable {data bytes : List UInt8} {headerLen : Nat}

inductive TcpError
  | segmentTooShort (length : Nat)
  | invalidDataOffset (offset : UInt8)
  | dataOffsetExceedsLength (offsetBytes available : Nat)
  | truncatedOption (offset : Nat) (kind : UInt8)
  | invalidOptionLength (offset : Nat) (kind length : UInt8)
  | optionLengthExceedsHeader (offset : Nat) (kind length : UInt8) (remaining : Nat)
  | invalidChecksum (found : UInt16)
deriving DecidableEq, Repr

structure ParsedSegment extends TcpSegment where
  dataOffset : UInt8
  checksum : UInt16
  urgentPtr : UInt16
deriving DecidableEq, Repr

def TcpFlags.fromU8 (x : UInt8) : TcpFlags :=
  ⟨x &&& 0x01 ≠ 0, x &&& 0x02 ≠ 0, x &&& 0x04 ≠ 0, x &&& 0x08 ≠ 0, x &&& 0x10 ≠ 0, x &&& 0x20 ≠ 0⟩

def u16Of (bytes : List UInt8) : UInt16 := UInt16.ofNat (beVal bytes)

def seqOf (bytes : List UInt8) : Seq := BitVec.ofNat 32 (beVal bytes)

/-- The `match` on the kind of an option, whose data is `body`. -/
def optionOf (offset : Nat) (kind length : UInt8) (body : List UInt8) : Except TcpError TcpOption :=
  if kind = 2 then
    if body.length = 2 then .ok (.mss (u16Of body)) else .error (.invalidOptionLength offset kind length)
  else if kind = 3 then
    match body with
    | [scale] => .ok (.windowScale scale)
    | _ => .error (.invalidOptionLength offset kind length)
  else if kind = 4 ∧ body = [] then .ok .sackPermitted
  else if kind = 5 ∧ body ≠ [] ∧ body.length % 8 = 0 then
    .ok (.sack ((chunks 8 body).map fun b => (seqOf (b.take 4), seqOf (b.drop 4))))
  else if kind = 8 ∧ body.length = 8 then .ok (.timestamp (seqOf (body.take 4)) (seqOf (body.drop 4)))
  else .ok (.unknown kind body)

/-- The option in front of what is left of a header of `headerLen` bytes, and how far the loop goes on. It ends
behind the end-of-options mark. -/
def readOption (headerLen : Nat) (rest : List UInt8) : Except TcpError (TcpOption × Nat) :=
  let offset := headerLen - rest.length
  match rest with
  | [] => .ok (.nop, 0)
  | kind :: tail =>
    if kind = 0 then .ok (.endOfOptions, rest.length)
    else if kind = 1 then .ok (.nop, 1)
    else match tail with
      | [] => .error (.truncatedOption offset kind)
      | length :: body =>
        if length.toNat < 2 then .error (.invalidOptionLength offset kind length)
        else if rest.length < length.toNat then .error (.optionLengthExceedsHeader offset kind length rest.length)
        else (optionOf offset kind length (body.take (length.toNat - 2))).map (·, length.toNat)

def pushOption (headerLen : Nat) (options : List TcpOption) (rest : List UInt8) :
    Except TcpError (List TcpOption × Nat) :=
  (readOption headerLen rest).map fun r => (options ++ [r.1], r.2)

def TcpSegment.parse (srcIp dstIp : Ipv4Address) (data : List UInt8) (checkChecksum : Bool) :
    Except TcpError ParsedSegment := do
  require (tcpMinHeaderLen ≤ data.length) (.segmentTooShort data.length)
  let dataOffset := data.getD 12 0 >>> 4
  require (5 ≤ dataOffset) (.invalidDataOffset dataOffset)
  let offsetBytes := dataOffset.toNat * 4
  require (offsetBytes ≤ data.length) (.dataOffsetExceedsLength offsetBytes data.length)
  let checksum := u16Of (slice data 16 18)
  require (checkChecksum = true → verifyIpv4TransportChecksum srcIp dstIp 6 data = true) (.invalidChecksum checksum)
  let options ← scan (pushOption offsetBytes) (slice data tcpMinHeaderLen offsetBytes) 0 []
  return {
    srcPort := u16Of (slice data 0 2), dstPort := u16Of (slice data 2 4), seqNum := seqOf (slice data 4 8)
    ackNum := seqOf (slice data 8 12), flags := .fromU8 (data.getD 13 0), windowSize := u16Of (slice data 14 16)
    options, payload := data.drop offsetBytes, dataOffset, checksum, urgentPtr := u16Of (slice data 18 20) }

/-! ## Fields -/

@[simp] theorem u16Of_u16Bytes (x : UInt16) : u16Of (u16Bytes x) = x := by
  rw [u16Of, show u16Bytes x = beBytes 2 x.toNat from rfl, beVal_beBytes_of_lt x.toNat_lt, UInt16.ofNat_toNat]

@[simp] theorem seqOf_u32Bytes (x : Seq) : seqOf (u32Bytes x) = x := by
  rw [seqOf, show u32Bytes x = beBytes 4 x.toNat from rfl, beVal_beBytes_of_lt x.isLt, BitVec.ofNat_toNat,
    BitVec.setWidth_eq]

theorem TcpFlags.fromU8_toU8 (f : TcpFlags) : fromU8 f.toU8 = f := by
  obtain ⟨fin, syn, rst, psh, ack, urg⟩ := f
  revert fin syn rst psh ack urg
  decide

/-! ## Options -/

/-- An option that the serialiser writes out in full and that reads as nothing else. -/
def TcpOption.Plain : TcpOption → Prop
  | .endOfOptions | .nop => False
  | .sack blocks => blocks ≠ [] ∧ blocks.length ≤ 4
  | .unknown kind _ => kind ∉ [0, 1, 2, 3, 4, 5, 8]
  | _ => True

variable {o : TcpOption}

theorem readOption_encode (h : o.Plain) (he : encodeOption o = .ok bytes) (headerLen : Nat)
    (rest : List UInt8) : readOption headerLen (bytes ++ rest) = .ok (o, bytes.length) := by
  have hgo : ∀ (kind length : UInt8) (body : List UInt8), kind ≠ 0 → kind ≠ 1 → length.toNat = body.length + 2 →
      (∀ offset, optionOf offset kind length body = .ok o) →
        readOption headerLen (kind :: length :: body ++ rest) = .ok (o, body.length + 2) := by
    intro kind length body h0 h1 hlen hof
    have htake : (body ++ rest).take (length.toNat - 2) = body := by rw [hlen, Nat.add_sub_cancel, List.take_left]
    simp only [readOption, List.cons_append, if_neg h0, if_neg h1]
    rw [if_neg (by omega), if_neg (by simp only [List.length_cons, List.length_append]; omega), htake, hof, hlen]
    rfl
  cases o with
  | endOfOptions | nop => exact h.elim
  | mss m =>
    cases he
    exact hgo 2 4 (u16Bytes m) (by decide) (by decide) rfl fun _ => by simp [optionOf]
  | windowScale scale =>
    cases he
    exact hgo 3 3 [scale] (by decide) (by decide) rfl fun _ => by simp [optionOf]
  | sackPermitted =>
    cases he
    exact hgo 4 2 [] (by decide) (by decide) rfl fun _ => by simp [optionOf]
  | sack blocks =>
    obtain ⟨hne, hle⟩ := h
    have hflat := length_flatMap_blocks blocks
    simp only [encodeOption, Nat.min_eq_left hle, List.take_length, Except.ok.injEq] at he
    subst he
    have hsize : (UInt8.ofNat (2 + blocks.length * 8)).toNat =
        (blocks.flatMap fun b => u32Bytes b.1 ++ u32Bytes b.2).length + 2 := by
      rw [hflat, UInt8.toNat_ofNat_of_lt' (by simp only [UInt8.size]; omega), Nat.add_comm]
    have hread := hgo 5 _ _ (by decide) (by decide) hsize fun _ => ?_
    · simpa using hread
    · have hbody : (blocks.flatMap fun b => u32Bytes b.1 ++ u32Bytes b.2) ≠ [] := by
        intro hnil
        rw [hnil] at hflat
        simp only [List.length_nil] at hflat
        exact hne (List.length_eq_zero_iff.mp (by omega))
      have hchunks := @chunks_flatMap 8 _ _ (by decide)
        (fun b : Seq × Seq => u32Bytes b.1 ++ u32Bytes b.2) blocks (by simp)
      simp [optionOf, hbody, hflat, hchunks, Function.comp_def]
  | timestamp val ecr =>
    cases he
    exact hgo 8 10 (u32Bytes val ++ u32Bytes ecr) (by decide) (by decide) (by simp) fun _ => by simp [optionOf]
  | unknown kind data =>
    simp only [TcpOption.Plain, List.mem_cons, not_or] at h
    rw [encodeOption] at he
    split at he
    · cases he
    · rename_i hlen
      cases he
      refine (hgo kind (UInt8.ofNat (data.length + 2)) data h.1 h.2.1 ?_ fun _ => ?_).trans (by simp)
      · exact UInt8.toNat_ofNat_of_lt' (by simp only [UInt8.size]; omega)
      · simp [optionOf, h.2.2]

theorem scan_encodeOptions :
    ∀ {os : List TcpOption} {acc out : List UInt8}, encodeOptions acc os = .ok out → (∀ o ∈ os, o.Plain) →
    ∃ bytes, out = acc ++ bytes ∧ ∀ headerLen options rest,
      scan (pushOption headerLen) (bytes ++ rest) 0 options = scan (pushOption headerLen) rest 0 (options ++ os)
  | [], acc, out, h, _ => ⟨[], by cases h; simp, by simp⟩
  | o :: os, acc, out, h, hp => by
    simp only [encodeOptions, steps_ok, exists_const] at h
    obtain ⟨b, hb, -, h⟩ := h
    obtain ⟨ho, hp⟩ := List.forall_mem_cons.mp hp
    obtain ⟨bytes, rfl, hscan⟩ := scan_encodeOptions h hp
    have hne : b ≠ [] := by
      rintro rfl
      have hread := readOption_encode ho hb 0 [0]
      simp only [readOption, List.nil_append, if_true, Except.ok.injEq, Prod.mk.injEq] at hread
      exact absurd hread.2 (by decide)
    refine ⟨b ++ bytes, by simp, fun headerLen options rest => ?_⟩
    have hpush : pushOption headerLen options (b ++ (bytes ++ rest)) = .ok (options ++ [o], b.length) := by
      rw [pushOption, readOption_encode ho hb]
      rfl
    rw [List.append_assoc, scan_record hne hpush, hscan, List.append_assoc, List.singleton_append]

theorem scan_padding (headerLen : Nat) : ∀ (n : Nat) (options : List TcpOption),
    scan (pushOption headerLen) (List.replicate n 1) 0 options = .ok (options ++ List.replicate n .nop)
  | 0, options => by simp
  | n + 1, options => by
    rw [List.replicate_succ, scan]
    simp only [pushOption, readOption]
    exact (scan_padding headerLen n _).trans (by simp [List.replicate_succ])

theorem readOption_inside {n : Nat} {rest : List UInt8} (h : readOption headerLen rest = .ok (o, n))
    (hne : rest ≠ []) : 0 < n ∧ n ≤ rest.length := by
  have hpos := List.length_pos_iff.mpr hne
  unfold readOption at h
  split at h
  · exact absurd rfl hne
  split at h
  · cases h
    exact ⟨hpos, le_rfl⟩
  split at h
  · cases h
    exact ⟨Nat.one_pos, hpos⟩
  split at h
  · cases h
  split at h
  · cases h
  split at h
  · cases h
  · obtain ⟨o', -, ho⟩ := except_map_eq_ok.mp h
    cases ho
    omega

/-- The option is read at an offset inside the header, and ends there. -/
def InHeader (data : List UInt8) (headerLen : Nat) (o : TcpOption) : Prop :=
  ∃ offset n, tcpMinHeaderLen ≤ offset ∧ 0 < n ∧ offset + n ≤ headerLen ∧
    readOption headerLen (slice data offset headerLen) = .ok (o, n)

theorem scan_inHeader (hle : headerLen ≤ data.length) :
    ∀ (k : Nat) {offset : Nat} {options out : List TcpOption}, headerLen - offset ≤ k → tcpMinHeaderLen ≤ offset →
      (∀ o ∈ options, InHeader data headerLen o) →
      scan (pushOption headerLen) (slice data offset headerLen) 0 options = .ok out →
        ∀ o ∈ out, InHeader data headerLen o
  | k, offset, options, out, hk, hoff, hin, h => by
    cases hrest : slice data offset headerLen with
    | nil =>
      rw [hrest, scan_nil] at h
      cases h
      exact hin
    | cons x tail =>
      have hlen := length_slice_of_le (a := offset) hle
      rw [hrest, scan] at h
      rw [hrest, List.length_cons] at hlen
      cases hr : readOption headerLen (x :: tail) with
      | error e => simp [pushOption, hr, Except.map] at h
      | ok r =>
        obtain ⟨o, n⟩ := r
        obtain ⟨hpos, hn⟩ := readOption_inside hr (List.cons_ne_nil _ _)
        simp only [List.length_cons] at hn
        simp only [pushOption, hr, Except.map] at h
        cases k with
        | zero => omega
        | succ k =>
          have hdrop : tail.drop (n - 1) = slice data (offset + n) headerLen := by
            have hstep := congrArg (List.drop n) hrest
            rw [slice, List.drop_drop] at hstep
            rw [slice, hstep]
            cases n with
            | zero => omega
            | succ n => rfl
          rw [scan_skip, hdrop] at h
          refine scan_inHeader hle k (by omega) (by omega) (fun o' ho' => ?_) h
          rcases List.mem_append.mp ho' with ho' | ho'
          · exact hin o' ho'
          · rw [List.mem_singleton.mp ho']
            exact ⟨offset, n, hoff, hpos, by omega, hrest ▸ hr⟩

/-! ## Whole segments -/

variable {srcIp dstIp : Ipv4Address} {check : Bool} {seg : TcpSegment}

theorem parse_layout {csum : UInt16} {optBytes : List UInt8}
    {options : List TcpOption} {k : Nat} (hk : optBytes.length = 4 * k) (hle : k ≤ 10)
    (hdata : data = u16Bytes seg.srcPort ++ u16Bytes seg.dstPort ++ u32Bytes seg.seqNum ++ u32Bytes seg.ackNum ++
      [UInt8.ofNat ((tcpMinHeaderLen + optBytes.length) / 4 * 16), seg.flags.toU8] ++ u16Bytes seg.windowSize ++
      u16Bytes csum ++ ([0, 0] ++ optBytes ++ seg.payload))
    (hscan : scan (pushOption (20 + 4 * k)) optBytes 0 [] = .ok options)
    (hsum : check = true → verifyIpv4TransportChecksum srcIp dstIp 6 data = true) :
    ∃ p, TcpSegment.parse srcIp dstIp data check = .ok p ∧ p.toTcpSegment = { seg with options } := by
  have hoffsets : ∀ k ≤ 10, 5 ≤ UInt8.ofNat ((20 + 4 * k) / 4 * 16) >>> (4 : UInt8) ∧
      (UInt8.ofNat ((20 + 4 * k) / 4 * 16) >>> (4 : UInt8)).toNat * 4 = 20 + 4 * k := by
    decide
  obtain ⟨hfive, hoffset⟩ := hoffsets k hle
  have hbyte : data.getD 12 0 = UInt8.ofNat ((20 + 4 * k) / 4 * 16) := by
    rw [hdata, hk]
    rfl
  have hlen : data.length = 20 + 4 * k + seg.payload.length := by
    simp [hdata, hk]
    omega
  have hmin : tcpMinHeaderLen ≤ data.length := by unfold tcpMinHeaderLen; omega
  have hsplit : ∃ front : List UInt8, front.length = tcpMinHeaderLen ∧
      data = front ++ (optBytes ++ seg.payload) := by
    rw [hdata, List.append_assoc [0, 0], ← List.append_assoc _ [0, 0]]
    exact ⟨_, by simp [tcpMinHeaderLen], rfl⟩
  have hopts : slice data tcpMinHeaderLen (20 + 4 * k) = optBytes := by
    obtain ⟨front, hfront, hdata⟩ := hsplit
    rw [hdata, slice_append_right hfront.le, hfront, Nat.sub_self]
    exact slice_append_left (by rw [hk, tcpMinHeaderLen, Nat.add_sub_cancel_left])
  have hpayload : data.drop (20 + 4 * k) = seg.payload := by
    obtain ⟨front, hfront, hdata⟩ := hsplit
    rw [hdata, ← List.append_assoc]
    exact List.drop_left' (by rw [List.length_append, hfront, hk, tcpMinHeaderLen])
  refine ⟨⟨{ seg with options }, data.getD 12 0 >>> 4, csum, 0⟩, ?_, rfl⟩
  simp only [TcpSegment.parse, require_pos hmin, hbyte, hoffset, hopts, hpayload, hscan, require_pos hfive,
    require_pos hsum, require_pos (show 20 + 4 * k ≤ data.length by omega), except_bind_ok, except_pure_eq]
  have hsrc : slice data 0 2 = u16Bytes seg.srcPort := hdata ▸ rfl
  have hdst : slice data 2 4 = u16Bytes seg.dstPort := hdata ▸ rfl
  have hseq : slice data 4 8 = u32Bytes seg.seqNum := hdata ▸ rfl
  have hack : slice data 8 12 = u32Bytes seg.ackNum := hdata ▸ rfl
  have hflags : data.getD 13 0 = seg.flags.toU8 := hdata ▸ rfl
  have hwindow : slice data 14 16 = u16Bytes seg.windowSize := hdata ▸ rfl
  have hcsum : slice data 16 18 = u16Bytes csum := hdata ▸ rfl
  have hurgent : slice data 18 20 = u16Bytes 0 := hdata ▸ rfl
  simp only [hsrc, hdst, hseq, hack, hflags, hwindow, hcsum, hurgent, u16Of_u16Bytes, seqOf_u32Bytes,
    TcpFlags.fromU8_toU8]

theorem parse_serialised
    (h : trySerializeWithOptions srcIp dstIp seg = .ok bytes) (hp : ∀ o ∈ seg.options, o.Plain) :
    ∃ p pad, TcpSegment.parse srcIp dstIp bytes check = .ok p ∧ pad < 4 ∧
      p.toTcpSegment = { seg with options := seg.options ++ List.replicate pad .nop } := by
  simp only [trySerializeWithOptions, steps_ok, exists_const] at h
  obtain ⟨opts, hopts, hle, rfl⟩ := h
  obtain ⟨_, rfl, hscan⟩ := scan_encodeOptions hopts hp
  have hlen : (padOptions opts).length = opts.length + (4 - opts.length % 4) % 4 := by simp [padOptions]
  have hpadded := (hscan (20 + 4 * ((padOptions opts).length / 4)) [] _).trans
    (scan_padding _ ((4 - opts.length % 4) % 4) _)
  obtain ⟨p, hparse, hp⟩ := parse_layout
    (show (padOptions opts).length = 4 * ((padOptions opts).length / 4) by omega)
    (by unfold tcpMaxOptionsLen at hle; omega) rfl hpadded fun _ => Net.verify_computed (by simp) (by decide)
  exact ⟨p, _, hparse, Nat.mod_lt _ (by decide), hp⟩

theorem parse_inside {p : ParsedSegment} (h : TcpSegment.parse srcIp dstIp data check = .ok p) :
    tcpMinHeaderLen ≤ p.dataOffset.toNat * 4 ∧ p.dataOffset.toNat * 4 ≤ data.length ∧
      ∀ o ∈ p.options, InHeader data (p.dataOffset.toNat * 4) o := by
  simp only [TcpSegment.parse, steps_ok, exists_const] at h
  obtain ⟨-, hfive, hle, -, options, hscan, rfl⟩ := h
  rw [UInt8.le_iff_toNat_le] at hfive
  exact ⟨by unfold tcpMinHeaderLen; exact Nat.mul_le_mul_right 4 hfive, hle,
    scan_inHeader hle _ le_rfl le_rfl (by simp) hscan⟩

theorem tcp_codec_round_trip (srcIp dstIp : Ipv4Address) :
    (∀ seg bytes check, trySerializeWithOptions srcIp dstIp seg = .ok bytes → (∀ o ∈ seg.options, o.Plain) →
      ∃ p pad, TcpSegment.parse srcIp dstIp bytes check = .ok p ∧ pad < 4 ∧
        p.toTcpSegment = { seg with options := seg.options ++ List.replicate pad .nop }) ∧
    ∀ data check p, TcpSegment.parse srcIp dstIp data check = .ok p →
      tcpMinHeaderLen ≤ p.dataOffset.toNat * 4 ∧ p.dataOffset.toNat * 4 ≤ data.length ∧
        ∀ o ∈ p.options, InHeader data (p.dataOffset.toNat * 4) o :=
  ⟨fun _ _ _ h hp => parse_serialised h hp, fun _ _ _ h => parse_inside h⟩

def emptySack : TcpSegment :=
  { srcPort := 1, dstPort := 2, seqNum := 0, ackNum := 0, flags := .fromU8 0x10, windowSize := 0,
    options := [.sack []], payload := [] }

/-- An acknowledgement without SACK blocks comes back with an unknown option of kind 5. -/
theorem emptySack_not_restored :
    ((trySerializeWithOptions .unspecified .unspecified emptySack).toOption.bind fun bytes =>
      (TcpSegment.parse .unspecified .unspecified bytes true).toOption.map (·.options)) =
        some [.unknown 5 [], .nop, .nop] := by
  decide +kernel

end SystemsLab.Tcp
