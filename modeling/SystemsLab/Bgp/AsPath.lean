import SystemsLab.Bgp.Prefix

/-!
# The AS_PATH attribute

A segment of more than 255 numbers is written as several, an empty one is dropped, and a number that two octets
cannot hold becomes `AS_TRANS`.
-/

namespace SystemsLab.Bgp

inductive AsPathSegmentKind
  | set
  | sequence
deriving DecidableEq, Repr

structure AsPathSegment where
  kind : AsPathSegmentKind
  asns : List UInt32
deriving DecidableEq, Repr

@[ext] structure AsPath where
  segments : List AsPathSegment
deriving DecidableEq, Repr

def asTrans : Nat := 23456
def asPathMaxSegmentAsns : Nat := 255
def bgpAsSet : UInt8 := 1
def bgpAsSequence : UInt8 := 2

namespace AsPathSegment

/-- Every AS of a sequence counts, one for a whole set. -/
def hops (s : AsPathSegment) : Nat :=
  match s.kind with
  | .sequence => s.asns.length
  | .set => 1

end AsPathSegment

namespace AsPath

def empty : AsPath := ⟨[]⟩

def sequence (asns : List UInt32) : AsPath := if asns.isEmpty then empty else ⟨[⟨.sequence, asns⟩]⟩

def length (p : AsPath) : Nat := (p.segments.map AsPathSegment.hops).sum

def isEmpty (p : AsPath) : Bool := p.segments.all (·.asns.isEmpty)

def contains (p : AsPath) (asn : UInt32) : Bool := p.segments.any (·.asns.contains asn)

def needsFourOctets (p : AsPath) : Bool := p.segments.any (·.asns.any fun a => 65535 < a.toNat)

def firstAs (p : AsPath) : Option UInt32 := (p.segments.find? (·.kind = .sequence)).bind (·.asns.head?)

def leadingAs (p : AsPath) : Option UInt32 :=
  match p.segments with
  | ⟨.sequence, asns⟩ :: _ => asns.head?
  | _ => none

def prepend (p : AsPath) (asn : UInt32) : AsPath :=
  match p.segments with
  | ⟨.sequence, asns⟩ :: rest =>
    if asns.length < 255 then ⟨⟨.sequence, asn :: asns⟩ :: rest⟩
    else ⟨⟨.sequence, [asn]⟩ :: p.segments⟩
  | _ => ⟨⟨.sequence, [asn]⟩ :: p.segments⟩

def flatten (p : AsPath) : List UInt32 := p.segments.flatMap (·.asns)

theorem length_prepend (p : AsPath) (asn : UInt32) : (p.prepend asn).length = p.length + 1 := by
  obtain ⟨segs⟩ := p
  match segs with
  | [] => rfl
  | ⟨.set, asns⟩ :: rest => simp [prepend, length, AsPathSegment.hops]; omega
  | ⟨.sequence, asns⟩ :: rest =>
    by_cases h : asns.length < 255 <;> simp [prepend, length, h, AsPathSegment.hops] <;> omega

/-! ## Encoding -/

def encodeAsn (fourOctet : Bool) (asn : UInt32) : List UInt8 :=
  if fourOctet then u32Bytes asn else u16Bytes (if asn.toNat ≤ 65535 then asn.toNat else asTrans)

def kindCode : AsPathSegmentKind → UInt8
  | .set => bgpAsSet
  | .sequence => bgpAsSequence

def encodeChunk (fourOctet : Bool) (kind : AsPathSegmentKind) (chunk : List UInt32) : List UInt8 :=
  kindCode kind :: UInt8.ofNat chunk.length :: chunk.flatMap (encodeAsn fourOctet)

def encodeWidth (p : AsPath) (fourOctet : Bool) : List UInt8 :=
  p.segments.flatMap fun seg => (chunks asPathMaxSegmentAsns seg.asns).flatMap (encodeChunk fourOctet seg.kind)

def asnWidth (fourOctet : Bool) : Nat := if fourOctet then 4 else 2

def asnAt (fourOctet : Bool) (data : List UInt8) (off : Nat) : Except Fault UInt32 :=
  if fourOctet then u32At data off else do pure (UInt32.ofNat (← u16At data off))

def kindOfCode (code : UInt8) : Except Fault AsPathSegmentKind :=
  if code = bgpAsSet then .ok .set
  else if code = bgpAsSequence then .ok .sequence
  else .error (updateError bgpSubMalformedAsPath s!"unknown AS_PATH segment type {code}")

/-- One turn of the loop of `decode_width`. -/
def decodeNext (fourOctet : Bool) (segments : List AsPathSegment) (data : List UInt8) :
    Except Fault (List AsPathSegment × Nat) := do
  require (2 ≤ data.length) (updateError bgpSubMalformedAsPath "truncated AS_PATH segment header")
  let kind ← kindOfCode (← byteAt data 0)
  let count ← byteAt data 1
  require (count ≠ 0) (updateError bgpSubMalformedAsPath "empty AS_PATH segment")
  let stop := 2 + count.toNat * asnWidth fourOctet
  require (stop ≤ data.length) (updateError bgpSubMalformedAsPath "truncated AS_PATH segment body")
  let asns ← (List.range count.toNat).mapM fun k => asnAt fourOctet data (2 + k * asnWidth fourOctet)
  pure (segments ++ [⟨kind, asns⟩], stop)

def decodeWidth (data : List UInt8) (fourOctet : Bool) : Except Fault AsPath := do
  let segments ← scan (decodeNext fourOctet) data 0 []
  pure ⟨segments⟩

def mergeAs4Path (p as4 : AsPath) : AsPath :=
  let narrow := p.flatten
  let wide := as4.flatten
  if wide.isEmpty ∨ narrow.length < wide.length then p
  else if (p.segments ++ as4.segments).any (·.kind ≠ .sequence) then p
  else sequence (narrow.take (narrow.length - wide.length) ++ wide)

/-! ## Reading back -/

def wireAsn (fourOctet : Bool) (asn : UInt32) : UInt32 :=
  if fourOctet ∨ asn.toNat ≤ 65535 then asn else UInt32.ofNat asTrans

/-- A path as the session carries it, cut into segments the count octet can describe. -/
def wire (p : AsPath) (fourOctet : Bool) : AsPath :=
  ⟨p.segments.flatMap fun seg =>
    (chunks asPathMaxSegmentAsns seg.asns).map fun c => ⟨seg.kind, c.map (wireAsn fourOctet)⟩⟩

@[simp] theorem length_encodeAsn (fourOctet : Bool) (asn : UInt32) :
    (encodeAsn fourOctet asn).length = asnWidth fourOctet := by
  cases fourOctet <;> simp [encodeAsn, asnWidth]

theorem length_encodeAsns (fourOctet : Bool) (asns : List UInt32) :
    (asns.flatMap (encodeAsn fourOctet)).length = asns.length * asnWidth fourOctet := by
  simp [List.length_flatMap]

theorem asnAt_encodeAsn {fourOctet : Bool} {p rest : List UInt8} {asn : UInt32} {off : Nat} (h : off = p.length) :
    asnAt fourOctet (p ++ (encodeAsn fourOctet asn ++ rest)) off = .ok (wireAsn fourOctet asn) := by
  cases fourOctet with
  | true => simpa [asnAt, encodeAsn, wireAsn] using u32At_u32Bytes h
  | false =>
    by_cases hs : asn.toNat ≤ 65535
    · simp [asnAt, encodeAsn, wireAsn, hs, u16At_u16Bytes h (show asn.toNat < 65536 by omega)]
    · simp [asnAt, encodeAsn, wireAsn, hs, u16At_u16Bytes h (show asTrans < 65536 by decide)]

theorem mapM_asnAt (fourOctet : Bool) : ∀ (asns : List UInt32) (p rest : List UInt8) (i : Nat) {off : Nat},
    off + i * asnWidth fourOctet = p.length →
    (List.range' i asns.length).mapM (fun k => asnAt fourOctet (p ++ (asns.flatMap (encodeAsn fourOctet) ++ rest))
      (off + k * asnWidth fourOctet)) = .ok (asns.map (wireAsn fourOctet))
  | [], _, _, _, _, _ => rfl
  | asn :: asns, p, rest, i, off, h => by
    have hmove : p ++ ((asn :: asns).flatMap (encodeAsn fourOctet) ++ rest) =
        (p ++ encodeAsn fourOctet asn) ++ (asns.flatMap (encodeAsn fourOctet) ++ rest) := by simp
    have hhead := @asnAt_encodeAsn fourOctet p (asns.flatMap (encodeAsn fourOctet) ++ rest) asn _ h
    have ih := @mapM_asnAt fourOctet asns (p ++ encodeAsn fourOctet asn) rest (i + 1) off (by
      rw [List.length_append, length_encodeAsn, ← h]; ring)
    rw [List.length_cons, List.range'_succ, List.mapM_cons, hmove, List.append_assoc, hhead]
    rw [List.append_assoc] at ih
    rw [except_bind_ok, ih]
    rfl

theorem decodeNext_encodeChunk (fourOctet : Bool) (segments : List AsPathSegment) (kind : AsPathSegmentKind)
    {chunk : List UInt32} (h0 : chunk ≠ []) (h255 : chunk.length ≤ 255) (rest : List UInt8) :
    decodeNext fourOctet segments (encodeChunk fourOctet kind chunk ++ rest) =
      .ok (segments ++ [⟨kind, chunk.map (wireAsn fourOctet)⟩], (encodeChunk fourOctet kind chunk).length) := by
  have hpos : 0 < chunk.length := List.length_pos_iff.mpr h0
  have hcount : (UInt8.ofNat chunk.length).toNat = chunk.length := by rw [UInt8.toNat_ofNat']; omega
  have hne : UInt8.ofNat chunk.length ≠ 0 := by
    intro h
    have h' : chunk.length = 0 := by rw [← hcount, h]; rfl
    omega
  have hlen : (encodeChunk fourOctet kind chunk).length = 2 + chunk.length * asnWidth fourOctet := by
    simp only [encodeChunk, List.length_cons, length_encodeAsns]; omega
  have hasns := @mapM_asnAt fourOctet chunk [kindCode kind, UInt8.ofNat chunk.length] rest 0 2 (by simp)
  have hkind : kindOfCode (kindCode kind) = .ok kind := by cases kind <;> rfl
  unfold decodeNext
  rw [require_pos (by rw [List.length_append, hlen]; omega), except_bind_ok,
    show byteAt (encodeChunk fourOctet kind chunk ++ rest) 0 = .ok (kindCode kind) from rfl, except_bind_ok, hkind,
    except_bind_ok, show byteAt (encodeChunk fourOctet kind chunk ++ rest) 1 =
      .ok (UInt8.ofNat chunk.length) from rfl, except_bind_ok,
    require_pos hne, except_bind_ok, hcount]
  simp only
  rw [require_pos (by rw [List.length_append, hlen]; omega), except_bind_ok, List.range_eq_range', hlen]
  rw [show encodeChunk fourOctet kind chunk ++ rest =
    [kindCode kind, UInt8.ofNat chunk.length] ++ (chunk.flatMap (encodeAsn fourOctet) ++ rest) from rfl, hasns]
  rfl

theorem decodeWidth_encodeWidth (p : AsPath) (fourOctet : Bool) :
    decodeWidth (p.encodeWidth fourOctet) fourOctet = .ok (p.wire fourOctet) := by
  -- The two loops of the encoder write one list of chunks, each with its kind.
  let pieces := p.segments.flatMap fun seg => (chunks asPathMaxSegmentAsns seg.asns).map (seg.kind, ·)
  have henc : p.encodeWidth fourOctet = pieces.flatMap fun x => encodeChunk fourOctet x.1 x.2 := by
    simp only [pieces, encodeWidth, List.flatMap_assoc, List.flatMap_map]
  have hpiece : ∀ x ∈ pieces, x.2 ≠ [] ∧ x.2.length ≤ 255 := by
    intro x hx
    simp only [pieces, List.mem_flatMap, List.mem_map] at hx
    obtain ⟨seg, -, c, hc, rfl⟩ := hx
    exact mem_chunks (by decide) hc
  have hwire : p.wire fourOctet = ⟨pieces.map fun x => ⟨x.1, x.2.map (wireAsn fourOctet)⟩⟩ := by
    simp only [pieces, wire, List.map_flatMap, List.map_map]
    rfl
  unfold decodeWidth
  rw [henc, scan_flatMap (fun x _ => by simp [encodeChunk])
    (fun out x hx rest => decodeNext_encodeChunk fourOctet out x.1 (hpiece x hx).1 (hpiece x hx).2 rest),
    foldl_push, hwire]
  rfl

theorem avoids_asnAt {data : List UInt8} {fourOctet : Bool} {i : Nat} (h : i + asnWidth fourOctet ≤ data.length) :
    Avoids .index (asnAt fourOctet data i) := by
  cases fourOctet with
  | true => exact avoids_u32At h
  | false => exact avoids_bind.mpr ⟨avoids_u16At h, fun _ _ => avoids_ok _⟩

theorem avoids_decodeWidth (data : List UInt8) (fourOctet : Bool) : Avoids .index (decodeWidth data fourOctet) := by
  unfold decodeWidth
  refine avoids_bind.mpr ⟨avoids_scan (fun out x l => ?_) data 0 [], by simp⟩
  simp only [decodeNext, kindOfCode, avoids_bind, avoids_ite, avoids_error, avoids_require, updateError_ne_index,
    false_implies, true_and, require_eq_ok, avoids_byteAt, List.length_cons, except_pure_eq, avoids_ok,
    implies_true, and_true, ne_eq, not_false_eq_true]
  refine fun _ h2 => ⟨by omega, fun code _ kind _ =>
    ⟨by omega, fun count _ _ _ _ hstop => avoids_mapM fun k hk => ?_⟩⟩
  have hk := Nat.mul_le_mul_right (asnWidth fourOctet) (List.mem_range.mp hk)
  refine avoids_asnAt ?_
  rw [List.length_cons, Nat.add_assoc, ← Nat.succ_mul]
  exact (Nat.add_le_add_left hk 2).trans hstop

/-! ## Four-octet sessions -/

variable {p : AsPath} {fourOctet : Bool} {asn : UInt32}

/-- The path with its long segments cut into pieces of at most 255, the others as they are. -/
def splitLong (p : AsPath) : AsPath :=
  ⟨p.segments.flatMap fun seg => if seg.asns.length ≤ 255 then [seg] else (chunks 255 seg.asns).map (⟨seg.kind, ·⟩)⟩

theorem map_wireAsn_true (asns : List UInt32) : asns.map (wireAsn true) = asns :=
  (List.map_congr_left fun _ _ => if_pos (.inl rfl)).trans (List.map_id' _)

theorem wire_true (h : ∀ seg ∈ p.segments, seg.asns ≠ []) : p.wire true = p.splitLong := by
  refine congrArg AsPath.mk (List.flatMap_congr fun seg hseg => ?_)
  simp only [map_wireAsn_true]
  split
  · rw [asPathMaxSegmentAsns, chunks_of_le (h seg hseg) ‹_›]
    rfl
  · rfl

/-! ## Two-octet sessions -/

/-- What a receiver without four-octet AS numbers makes of the path: AS4_PATH goes along if needed, and is
merged. -/
def overTwoOctets (p : AsPath) : Except Fault AsPath := do
  let narrow ← decodeWidth (p.encodeWidth false) false
  if p.needsFourOctets then do
    let as4 ← decodeWidth (p.encodeWidth true) true
    pure (narrow.mergeAs4Path as4)
  else pure narrow

theorem contains_iff : p.contains asn = true ↔ asn ∈ p.flatten := by
  simp [contains, flatten]

theorem flatten_wire (p : AsPath) (fourOctet : Bool) :
    (p.wire fourOctet).flatten = p.flatten.map (wireAsn fourOctet) := by
  simp only [flatten, wire, List.flatMap_assoc, List.map_flatMap, List.flatMap_map]
  refine List.flatMap_congr fun seg _ => ?_
  rw [← List.map_flatMap, List.flatMap_id', flatten_chunks (by decide)]

theorem chunks_asns_ne_nil {seg : AsPathSegment} (h : seg.asns ≠ []) :
    chunks asPathMaxSegmentAsns seg.asns ≠ [] := by
  intro hnil
  have hflat := flatten_chunks (show 0 < asPathMaxSegmentAsns by decide) seg.asns
  exact h (by rw [← hflat, hnil, List.flatten_nil])

theorem hops_wire {seg : AsPathSegment} (h : seg.asns ≠ []) :
    ∃ k, k = ((((chunks asPathMaxSegmentAsns seg.asns).map fun c =>
    (⟨seg.kind, c.map (wireAsn fourOctet)⟩ : AsPathSegment))).map AsPathSegment.hops).sum ∧ seg.hops ≤ k ∧
      (k = seg.hops ↔ (seg.kind = .set → seg.asns.length ≤ 255)) := by
  have hflat := flatten_chunks (show 0 < asPathMaxSegmentAsns by decide) seg.asns
  refine ⟨_, rfl, ?_⟩
  cases hk : seg.kind with
  | sequence =>
    have hsum : ((chunks asPathMaxSegmentAsns seg.asns).map List.length).sum = seg.asns.length := by
      rw [← List.length_flatten, hflat]
    simp [AsPathSegment.hops, hk, Function.comp_def, hsum]
  | set =>
    have hpos := List.length_pos_of_ne_nil (chunks_asns_ne_nil h)
    simp only [AsPathSegment.hops, hk, List.map_map, Function.comp_def, List.map_const', List.sum_replicate_nat,
      Nat.mul_one, forall_const]
    refine ⟨hpos, fun h1 => ?_, fun h255 => congrArg List.length (chunks_of_le h h255)⟩
    obtain ⟨c, hc⟩ := List.length_eq_one_iff.mp h1
    have hlen := (mem_chunks (show 0 < asPathMaxSegmentAsns by decide) (hc ▸ List.mem_singleton_self c)).2
    rw [hc, List.flatten_singleton] at hflat
    rw [← hflat]
    exact hlen

section
variable (h : ∀ seg ∈ p.segments, seg.asns ≠ [])
include h

theorem length_wire : p.length ≤ (p.wire fourOctet).length ∧
    ((p.wire fourOctet).length = p.length ↔ ∀ seg ∈ p.segments, seg.kind = .set → seg.asns.length ≤ 255) := by
  obtain ⟨segments⟩ := p
  induction segments with
  | nil => simp [length, wire]
  | cons seg segments ih =>
    obtain ⟨hseg, hrest⟩ := List.forall_mem_cons.mp h
    obtain ⟨k, hk, hle, hiff⟩ := @hops_wire fourOctet seg hseg
    obtain ⟨hle', hiff'⟩ := ih hrest
    simp only [length, wire, List.flatMap_cons, List.map_append, List.map_cons, List.sum_append, List.sum_cons,
      List.forall_mem_cons, ← hk, ← hiff, ← hiff'] at hle' ⊢
    omega

theorem any_kind_wire :
    (p.wire fourOctet).segments.any (·.kind ≠ .sequence) = p.segments.any (·.kind ≠ .sequence) := by
  rw [Bool.eq_iff_iff, List.any_eq_true, List.any_eq_true]
  simp only [wire, List.mem_flatMap, List.mem_map]
  constructor
  · rintro ⟨_, ⟨seg, hseg, c, -, rfl⟩, hk⟩
    exact ⟨seg, hseg, hk⟩
  · rintro ⟨seg, hseg, hk⟩
    obtain ⟨c, hc⟩ := List.exists_mem_of_ne_nil _ (chunks_asns_ne_nil (h seg hseg))
    exact ⟨_, ⟨seg, hseg, c, hc, rfl⟩, hk⟩

theorem mergeAs4Path_wire (hfour : p.needsFourOctets = true) :
    (p.wire false).mergeAs4Path (p.wire true) =
      if p.segments.any (·.kind ≠ .sequence) then p.wire false else ⟨[⟨.sequence, p.flatten⟩]⟩ := by
  have hne : p.flatten ≠ [] := by
    intro hnil
    simp [needsFourOctets, flatten] at hfour hnil
    obtain ⟨seg, hseg, asn, hasn, -⟩ := hfour
    rw [hnil seg hseg] at hasn
    cases hasn
  have htrue : (p.wire true).flatten = p.flatten := by rw [flatten_wire, map_wireAsn_true]
  simp only [mergeAs4Path, htrue, flatten_wire, List.length_map, lt_irrefl, or_false, List.isEmpty_iff, if_neg hne,
    List.any_append, any_kind_wire h, Bool.or_self, Nat.sub_self, List.take_zero, List.nil_append, sequence]

end

theorem two_octet_sessions_iff (h : ∀ seg ∈ p.segments, seg.asns ≠ []) :
    (∃ q, p.overTwoOctets = .ok q ∧ (∀ asn, q.contains asn = p.contains asn) ∧ q.length = p.length) ↔
      (p.needsFourOctets = true → ∀ seg ∈ p.segments, seg.kind = .sequence) ∧
        ∀ seg ∈ p.segments, seg.kind = .set → seg.asns.length ≤ 255 := by
  have hcontains : ∀ {q : AsPath}, (∀ asn, q.contains asn = p.contains asn) ↔
      ∀ asn, asn ∈ q.flatten ↔ asn ∈ p.flatten :=
    forall_congr' fun asn => by rw [Bool.eq_iff_iff, contains_iff, contains_iff]
  have hover : p.overTwoOctets =
      .ok (if p.needsFourOctets then (p.wire false).mergeAs4Path (p.wire true) else p.wire false) := by
    unfold overTwoOctets
    rw [decodeWidth_encodeWidth, decodeWidth_encodeWidth, except_bind_ok]
    split <;> rfl
  by_cases hfour : p.needsFourOctets = true
  · rw [hover, if_pos hfour, mergeAs4Path_wire h hfour]
    by_cases hset : p.segments.any (·.kind ≠ .sequence) = true
    · -- The wide number is replaced by `AS_TRANS` and nothing brings it back.
      rw [if_pos hset]
      simp only [needsFourOctets, List.any_eq_true, decide_eq_true_eq] at hset hfour
      refine iff_of_false ?_ fun hc => ?_
      · rintro ⟨_, ⟨⟩, hq, -⟩
        obtain ⟨seg, hseg, asn, hasn, hlt⟩ := hfour
        have hmem := (hcontains.mp hq asn).mpr (List.mem_flatMap.mpr ⟨seg, hseg, hasn⟩)
        rw [flatten_wire] at hmem
        obtain ⟨a, -, rfl⟩ := List.mem_map.mp hmem
        unfold wireAsn at hlt
        split at hlt
        · simp_all
          omega
        · exact absurd hlt (by decide)
      · obtain ⟨seg, hseg, hk⟩ := hset
        exact hk (hc.1 (by simpa [needsFourOctets] using hfour) seg hseg)
    · have hseq : ∀ seg ∈ p.segments, seg.kind = .sequence := by simpa using hset
      rw [if_neg hset]
      refine iff_of_true ⟨_, rfl, hcontains.mpr fun asn => by simp [flatten], ?_⟩
        ⟨fun _ => hseq, fun seg hseg hk => absurd (hk.symm.trans (hseq seg hseg)) (by decide)⟩
      simp only [length, flatten, List.length_flatMap, AsPathSegment.hops, List.map_cons, List.map_nil,
        List.sum_cons, List.sum_nil, Nat.add_zero]
      exact congrArg List.sum (List.map_congr_left fun seg hseg => by simp [AsPathSegment.hops, hseq seg hseg])
  · have hsmall : ∀ asn ∈ p.flatten, wireAsn false asn = asn := by
      intro asn hasn
      obtain ⟨seg, hseg, hasn⟩ := List.mem_flatMap.mp hasn
      simp only [needsFourOctets, List.any_eq_true, decide_eq_true_eq, not_exists, not_and, Nat.not_lt] at hfour
      exact if_pos (.inr (hfour seg hseg asn hasn))
    have hflat : (p.wire false).flatten = p.flatten := by
      rw [flatten_wire, List.map_congr_left hsmall, List.map_id']
    rw [hover, if_neg hfour]
    constructor
    · rintro ⟨_, ⟨⟩, -, hlen⟩
      exact ⟨fun hc => absurd hc hfour, (length_wire h).2.mp hlen⟩
    · rintro ⟨-, hc⟩
      exact ⟨_, rfl, hcontains.mpr fun asn => by rw [hflat], (length_wire h).2.mpr hc⟩

/-- AS 65536 reached the network through an aggregate, and the receiver does not see it. -/
theorem overTwoOctets_hides_set : let p : AsPath := ⟨[⟨.set, [65536]⟩]⟩
    p.contains 65536 = true ∧ ∃ q, p.overTwoOctets = .ok q ∧ q.contains 65536 = false :=
  ⟨by decide, ⟨[⟨.set, [23456]⟩]⟩, by decide +kernel, by decide⟩

theorem two_octet_sessions_sequence : ∃ q, overTwoOctets ⟨[⟨.sequence, [65536, 7]⟩]⟩ = .ok q ∧
    (∀ asn, q.contains asn = contains ⟨[⟨.sequence, [65536, 7]⟩]⟩ asn) ∧ q.length = 2 :=
  (two_octet_sessions_iff (by simp)).mpr ⟨by simp, by simp⟩

end AsPath

end SystemsLab.Bgp
