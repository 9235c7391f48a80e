import Mathlib.Data.Rat.Floor
import Mathlib.Data.Int.Log

/-!
# Congestion control and the round-trip estimator

`congestion.rs`, with the saturating and wrapping sums of the source written out. The estimator computes in
binary64, which is a rational rounded after every operation.
-/

namespace SystemsLab.Tcp

inductive CongestionState
  | slowStart
  | congestionAvoidance
  | fastRecovery
deriving DecidableEq, Repr

@[ext]
structure CongestionControl where
  cwnd : Nat
  ssthresh : Nat
  mss : Nat
  dupAckCount : Nat
  state : CongestionState
  inFlight : Nat
deriving DecidableEq, Repr

/-- `u32::saturating_add`. -/
def saturatingAdd (a b : Nat) : Nat := min (a + b) (2 ^ 32 - 1)

namespace CongestionControl

def new (mss : Nat) : CongestionControl where
  cwnd := 2 * mss
  ssthresh := 65535
  mss := mss
  dupAckCount := 0
  state := .slowStart
  inFlight := 0

variable (cc : CongestionControl)

def onAck (bytesAcked : Nat) : CongestionControl :=
  let cc := { cc with inFlight := if bytesAcked ≤ cc.inFlight then cc.inFlight - bytesAcked else 0 }
  match cc.state with
  | .slowStart =>
    let cwnd := saturatingAdd cc.cwnd (min bytesAcked cc.mss)
    { cc with
      cwnd := cwnd
      state := if cc.ssthresh ≤ cwnd then .congestionAvoidance else .slowStart
      dupAckCount := 0 }
  | .congestionAvoidance =>
    { cc with
      cwnd := if 0 < cc.cwnd then saturatingAdd cc.cwnd (max (cc.mss * cc.mss / cc.cwnd) 1) else cc.cwnd
      dupAckCount := 0 }
  | .fastRecovery => { cc with cwnd := cc.ssthresh, dupAckCount := 0, state := .congestionAvoidance }

def onDupAck : CongestionControl × Bool :=
  let cc := { cc with dupAckCount := (cc.dupAckCount + 1) % 2 ^ 32 }
  if cc.dupAckCount = 3 then
    let ssthresh := max (cc.cwnd / 2) (2 * cc.mss)
    ({ cc with ssthresh := ssthresh, cwnd := ssthresh + 3 * cc.mss, state := .fastRecovery }, true)
  else if 3 < cc.dupAckCount ∧ cc.state = .fastRecovery then
    ({ cc with cwnd := saturatingAdd cc.cwnd cc.mss }, false)
  else (cc, false)

def onTimeout : CongestionControl :=
  { cc with ssthresh := max (cc.cwnd / 2) (2 * cc.mss), cwnd := cc.mss, dupAckCount := 0, state := .slowStart }

def sendWindowAvailable (peerRwnd : UInt16) : Nat :=
  min cc.cwnd peerRwnd.toNat - cc.inFlight

def recordSent (bytes : Nat) : CongestionControl :=
  { cc with inFlight := (cc.inFlight + bytes) % 2 ^ 32 }

@[simp] theorem onAck_inFlight (cc : CongestionControl) (n : Nat) : (cc.onAck n).inFlight = cc.inFlight - n := by
  have e : (if n ≤ cc.inFlight then cc.inFlight - n else 0) = cc.inFlight - n := by split <;> omega
  unfold onAck
  cases cc.state <;> simp [e]

@[simp] theorem onDupAck_inFlight (cc : CongestionControl) : cc.onDupAck.1.inFlight = cc.inFlight := by
  unfold onDupAck
  simp only
  split_ifs <;> rfl

end CongestionControl

/-! ## Binary64 -/

def roundEven (q : ℚ) : ℤ :=
  let f := ⌊q⌋
  if q - f < 1 / 2 then f else if 1 / 2 < q - f then f + 1 else if f % 2 = 0 then f else f + 1

/-- The binary64 number nearest to `q`, with 53 significant bits. No value of the estimator leaves the normal
range. -/
def f64 (q : ℚ) : ℚ :=
  if q = 0 then 0
  else
    let ulp : ℚ := 2 ^ (Int.log 2 |q| - 52)
    roundEven (q / ulp) * ulp

structure RttEstimator where
  srtt : Option ℚ
  rttvar : Option ℚ
  rto : ℚ
  minRto : ℚ
  maxRto : ℚ
deriving DecidableEq, Repr

namespace RttEstimator

def new : RttEstimator where
  srtt := none
  rttvar := none
  rto := 1000
  minRto := 200
  maxRto := 60000

/-- `f64::clamp`. -/
def clamp (q lo hi : ℚ) : ℚ := if q < lo then lo else if hi < q then hi else q

def updateSample (rtt : RttEstimator) (sample : ℚ) : RttEstimator :=
  match rtt.srtt, rtt.rttvar with
  | none, _ =>
    { rtt with
      srtt := some sample
      rttvar := some (f64 (sample / 2))
      rto := clamp (f64 (sample + f64 (4 * f64 (sample / 2)))) rtt.minRto rtt.maxRto }
  | some srtt, some rttvar =>
    let newRttvar := f64 (f64 (3 / 4 * rttvar) + f64 (1 / 4 * |f64 (srtt - sample)|))
    let newSrtt := f64 (f64 (7 / 8 * srtt) + f64 (1 / 8 * sample))
    { rtt with
      srtt := some newSrtt
      rttvar := some newRttvar
      rto := clamp (f64 (newSrtt + f64 (4 * newRttvar))) rtt.minRto rtt.maxRto }
  | some _, none => rtt

def backoff (rtt : RttEstimator) : RttEstimator := { rtt with rto := min (f64 (rtt.rto * 2)) rtt.maxRto }

/-- `rto as u64`. -/
def rtoMs (rtt : RttEstimator) : Nat := ⌊rtt.rto⌋₊

end RttEstimator

end SystemsLab.Tcp
