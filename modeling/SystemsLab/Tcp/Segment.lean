import SystemsLab.Net.Checksum
import SystemsLab.Tcp.Seq

/-!
# Segments and their serialisation

The option area of a header holds 40 bytes. The serialiser refuses more, and `serialize_with_options`, which every
reply goes through, unwraps its result.
-/

namespace SystemsLab.Tcp

open Net (u16Bytes computeIpv4TransportChecksum)

/-! ## Flags, options, segments -/

structure TcpFlags where
  fin : Bool := false
  syn : Bool := false
  rst : Bool := false
  psh : Bool := false
  ack : Bool := false
  urg : Bool := false
deriving DecidableEq, Repr

namespace TcpFlags

def toU8 (f : TcpFlags) : UInt8 :=
  (if f.fin then 0x01 else 0) ||| (if f.syn then 0x02 else 0) ||| (if f.rst then 0x04 else 0) |||
    (if f.psh then 0x08 else 0) ||| (if f.ack then 0x10 else 0) ||| (if f.urg then 0x20 else 0)

-- The constructors `TcpFlags::ack()`, `syn()`, `syn_ack()` and `fin_ack()` of the source.

def ackOnly : TcpFlags := { ack := true }

def synOnly : TcpFlags := { syn := true }

def synAck : TcpFlags := { syn := true, ack := true }

def finAck : TcpFlags := { fin := true, ack := true }

end TcpFlags

inductive TcpOption
  | endOfOptions
  | nop
  | mss (m : UInt16)
  | windowScale (scale : UInt8)
  | sackPermitted
  | sack (blocks : List (Seq × Seq))
  | timestamp (val ecr : Seq)
  | unknown (kind : UInt8) (data : List UInt8)
deriving DecidableEq, Repr

/-- What a connection reads of a segment, and what it hands to the serialiser. -/
structure TcpSegment where
  srcPort : UInt16
  dstPort : UInt16
  seqNum : Seq
  ackNum : Seq
  flags : TcpFlags
  windowSize : UInt16
  options : List TcpOption
  payload : List UInt8
deriving DecidableEq, Repr

/-! ## Serialisation -/

def tcpMinHeaderLen : Nat := 20

def tcpMaxOptionsLen : Nat := 40

inductive TcpSerializeError
  | optionLengthTooLarge (kind : UInt8) (length : Nat)
  | optionsTooLong (length max : Nat)
deriving DecidableEq, Repr

def u32Bytes (x : Seq) : List UInt8 := (leBytes 4 x.toNat).reverse

@[simp] theorem length_u32Bytes (x : Seq) : (u32Bytes x).length = 4 := by simp [u32Bytes]

def encodeOption : TcpOption → Except TcpSerializeError (List UInt8)
  | .endOfOptions => .ok [0]
  | .nop => .ok [1]
  | .mss m => .ok ([2, 4] ++ u16Bytes m)
  | .windowScale scale => .ok [3, 3, scale]
  | .sackPermitted => .ok [4, 2]
  | .sack blocks =>
    let count := min blocks.length 4
    .ok ([5, UInt8.ofNat (2 + count * 8)] ++ (blocks.take count).flatMap fun b => u32Bytes b.1 ++ u32Bytes b.2)
  | .timestamp val ecr => .ok ([8, 10] ++ u32Bytes val ++ u32Bytes ecr)
  | .unknown kind data =>
    if 255 < data.length + 2 then .error (.optionLengthTooLarge kind (data.length + 2))
    else .ok ([kind, UInt8.ofNat (data.length + 2)] ++ data)

def encodeOptions : List UInt8 → List TcpOption → Except TcpSerializeError (List UInt8)
  | optBytes, [] => .ok optBytes
  | optBytes, o :: os => do
    let bytes ← encodeOption o
    let optBytes := optBytes ++ bytes
    require (optBytes.length ≤ tcpMaxOptionsLen) (.optionsTooLong optBytes.length tcpMaxOptionsLen)
    encodeOptions optBytes os

def padOptions (optBytes : List UInt8) : List UInt8 :=
  optBytes ++ List.replicate ((4 - optBytes.length % 4) % 4) 1

def trySerializeWithOptions (srcIp dstIp : Ipv4Address) (seg : TcpSegment) :
    Except TcpSerializeError (List UInt8) := do
  let optBytes ← encodeOptions [] seg.options
  let optBytes := padOptions optBytes
  require (optBytes.length ≤ tcpMaxOptionsLen) (.optionsTooLong optBytes.length tcpMaxOptionsLen)
  let dataOffset := (tcpMinHeaderLen + optBytes.length) / 4
  let front := u16Bytes seg.srcPort ++ u16Bytes seg.dstPort ++ u32Bytes seg.seqNum ++ u32Bytes seg.ackNum ++
    [UInt8.ofNat (dataOffset * 16), seg.flags.toU8] ++ u16Bytes seg.windowSize
  let back := [0, 0] ++ optBytes ++ seg.payload
  let csum := computeIpv4TransportChecksum srcIp dstIp 6 (front ++ [0, 0] ++ back)
  return front ++ u16Bytes csum ++ back

def TcpSegment.Serialises (seg : TcpSegment) : Prop :=
  ∀ srcIp dstIp, ∃ bytes, trySerializeWithOptions srcIp dstIp seg = .ok bytes

/-! ## What fits -/

def TcpOption.size : TcpOption → Nat
  | .endOfOptions => 1
  | .nop => 1
  | .mss _ => 4
  | .windowScale _ => 3
  | .sackPermitted => 2
  | .sack blocks => 2 + min blocks.length 4 * 8
  | .timestamp _ _ => 10
  | .unknown _ data => data.length + 2

def optionsSize (os : List TcpOption) : Nat := (os.map TcpOption.size).sum

def TcpOption.Known : TcpOption → Prop
  | .unknown _ _ => False
  | _ => True

instance : DecidablePred TcpOption.Known := fun o => by cases o <;> unfold TcpOption.Known <;> infer_instance

theorem length_flatMap_blocks (l : List (Seq × Seq)) :
    (l.flatMap fun b => u32Bytes b.1 ++ u32Bytes b.2).length = l.length * 8 := by
  induction l with
  | nil => rfl
  | cons b l ih => rw [List.flatMap_cons, List.length_append, ih]; simp; omega

theorem encodeOption_size {o : TcpOption} (h : o.Known) :
    ∃ bytes, encodeOption o = .ok bytes ∧ bytes.length = o.size := by
  cases o with
  | unknown kind data => exact h.elim
  | sack blocks =>
    refine ⟨_, rfl, ?_⟩
    simp only [List.length_append, length_flatMap_blocks, List.length_take, TcpOption.size, List.length_cons,
      List.length_nil]
    omega
  | _ => exact ⟨_, rfl, by simp [TcpOption.size]⟩

theorem encodeOptions_cases {os : List TcpOption} (h : ∀ o ∈ os, o.Known) :
    ∀ {acc : List UInt8}, acc.length ≤ tcpMaxOptionsLen →
      ((∃ bytes, encodeOptions acc os = .ok bytes ∧ bytes.length = acc.length + optionsSize os) ∧
          acc.length + optionsSize os ≤ tcpMaxOptionsLen ∨
        (∃ e, encodeOptions acc os = .error e) ∧ tcpMaxOptionsLen < acc.length + optionsSize os) := by
  induction os with
  | nil =>
    intro acc hacc
    exact .inl ⟨⟨acc, rfl, rfl⟩, by simpa [optionsSize] using hacc⟩
  | cons o os ih =>
    intro acc hacc
    obtain ⟨bytes, hb, hl⟩ := encodeOption_size (h o List.mem_cons_self)
    have hsize : optionsSize (o :: os) = o.size + optionsSize os := by simp [optionsSize]
    have hlen : (acc ++ bytes).length = acc.length + o.size := by rw [List.length_append, hl]
    simp only [encodeOptions, hb, except_bind_ok]
    by_cases hfit : (acc ++ bytes).length ≤ tcpMaxOptionsLen
    · rw [require_pos hfit, except_bind_ok, hsize, ← Nat.add_assoc, ← hlen]
      exact ih (fun o' ho' => h o' (List.mem_cons_of_mem o ho')) hfit
    · rw [require_neg hfit, except_bind_error]
      exact .inr ⟨⟨_, rfl⟩, by omega⟩

theorem length_padOptions_le {l : List UInt8} (h : l.length ≤ tcpMaxOptionsLen) :
    (padOptions l).length ≤ tcpMaxOptionsLen := by
  unfold padOptions tcpMaxOptionsLen at *
  rw [List.length_append, List.length_replicate]
  omega

theorem TcpSegment.serialises_iff {seg : TcpSegment} (h : ∀ o ∈ seg.options, o.Known) :
    seg.Serialises ↔ optionsSize seg.options ≤ tcpMaxOptionsLen := by
  have hcases := @encodeOptions_cases _ h [] (by decide)
  rw [List.length_nil, Nat.zero_add] at hcases
  unfold TcpSegment.Serialises trySerializeWithOptions
  obtain ⟨⟨bytes, hb, hl⟩, hle⟩ | ⟨⟨e, he⟩, hlt⟩ := hcases
  · have hpad := length_padOptions_le (l := bytes) (by omega)
    simp only [hb, except_bind_ok, require_pos hpad, hle, iff_true]
    exact fun _ _ => ⟨_, rfl⟩
  · simp only [he, except_bind_error, reduceCtorEq, exists_false]
    constructor
    · intro hf; exact (hf .unspecified .unspecified).elim
    · intro hle; omega

end SystemsLab.Tcp
