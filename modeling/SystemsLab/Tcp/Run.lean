import SystemsLab.Lib.Along
import SystemsLab.Tcp.Intake

/-!
# Runs of a connection

A call that hands the serialiser a segment it refuses panics, and nothing follows it. Who may call
`initiate_syn_at`, and when, is a parameter.
-/

namespace SystemsLab.Tcp

inductive Call
  | handleSegment (seg : TcpSegment) (now : Nat)
  | write (data : List UInt8)
  | read (n : Nat)
  | pollOutput (now : Nat)
  | initiateClose (now : Nat)
  | initiateSyn (now : Nat)
  | sendData (payload : List UInt8) (now : Nat)

namespace TcpConnection

def call (c : TcpConnection) : Call → TcpConnection × List TcpSegment
  | .handleSegment seg now => ((c.handleSegmentAt seg now).1, (c.handleSegmentAt seg now).2.toList)
  | .write data => ((c.write data).1, [])
  | .read n => ((c.read n).1, [])
  | .pollOutput now => c.pollOutput now
  | .initiateClose now => ((c.initiateCloseAt now).1, (c.initiateCloseAt now).2.toList)
  | .initiateSyn now => ((c.initiateSynAt now).1, [(c.initiateSynAt now).2])
  | .sendData payload now => c.sendDataAt payload now

def after (c : TcpConnection) (k : Call) : TcpConnection := (c.call k).1

def Returns (c : TcpConnection) (k : Call) : Prop := ∀ p ∈ (c.call k).2, p.Serialises

end TcpConnection

def Call.Opens (mayOpen : TcpConnection → Prop) (c : TcpConnection) : Call → Prop
  | .initiateSyn _ => mayOpen c
  | _ => True

/-- The connections that calls which return lead to, from a new server or a new client. -/
inductive Reachable (mayOpen : TcpConnection → Prop) : TcpConnection → Prop
  | server (localAddr remote : SocketAddrV4) (isn : Seq) : Reachable mayOpen (.newServer localAddr remote isn)
  | client (localAddr remote : SocketAddrV4) (isn : Seq) : Reachable mayOpen (.newClient localAddr remote isn)
  | call {c : TcpConnection} (k : Call) (hc : Reachable mayOpen c) (hk : k.Opens mayOpen c) (hr : c.Returns k) :
    Reachable mayOpen (c.call k).1

variable {c : TcpConnection}

theorem Reachable.invariant {mayOpen P : TcpConnection → Prop}
    (hs : ∀ a b isn, P (.newServer a b isn)) (hcl : ∀ a b isn, P (.newClient a b isn))
    (step : ∀ c k, P c → k.Opens mayOpen c → P (c.call k).1) (h : Reachable mayOpen c) : P c := by
  induction h with
  | server a b isn => exact hs a b isn
  | client a b isn => exact hcl a b isn
  | call k _ hk _ ih => exact step _ k ih hk

variable {mayOpen : TcpConnection → Prop}

/-! ## A server after the handshake

Initial sequence number 1000, opened by a client whose SYN has sequence number 0 and given options. -/

def peerAddr : SocketAddrV4 := ⟨⟨10, 0, 0, 1⟩, 49152⟩

def serverAddr : SocketAddrV4 := ⟨⟨10, 0, 0, 2⟩, 80⟩

def fromPeer (seqNum ackNum : Seq) (flags : TcpFlags) (options : List TcpOption) (payload : List UInt8) :
    TcpSegment :=
  ⟨peerAddr.port, serverAddr.port, seqNum, ackNum, flags, 65535, options, payload⟩

def handshake (options : List TcpOption) : List Call :=
  [.handleSegment (fromPeer 0 0 .synOnly options []) 0, .handleSegment (fromPeer 1 1001 .ackOnly [] []) 0]

namespace TcpConnection

def callAll (c : TcpConnection) (ks : List Call) : TcpConnection := ks.foldl (fun c k => (c.call k).1) c

def fits (c : TcpConnection) (k : Call) : Bool :=
  (c.call k).2.all fun p => p.options.all (fun o => decide o.Known) &&
    decide (optionsSize p.options ≤ tcpMaxOptionsLen)

def allFit : TcpConnection → List Call → Bool
  | _, [] => true
  | c, k :: ks => c.fits k && allFit (c.call k).1 ks

theorem returns_of_fits {k : Call} (h : c.fits k = true) : c.Returns k := by
  intro p hp
  have := List.all_eq_true.mp h p hp
  simp only [Bool.and_eq_true, List.all_eq_true, decide_eq_true_eq] at this
  exact (TcpSegment.serialises_iff this.1).mpr this.2

end TcpConnection

def Call.isOpen : Call → Bool
  | .initiateSyn _ => true
  | _ => false

theorem opens_of_none {ks : List Call} (h : ks.all (fun k => !k.isOpen) = true) :
    ∀ k ∈ ks, ∀ c, k.Opens mayOpen c := by
  intro k hk c
  have := List.all_eq_true.mp h k hk
  cases k with
  | initiateSyn => cases this
  | _ => trivial

theorem opens_of_any (k : Call) (c : TcpConnection) : k.Opens (fun _ => True) c := by
  cases k <;> trivial

theorem Reachable.callAll {ks : List Call} (hc : Reachable mayOpen c)
    (hopen : ∀ k ∈ ks, ∀ c, k.Opens mayOpen c) (hfit : c.allFit ks = true) : Reachable mayOpen (c.callAll ks) := by
  induction ks generalizing c with
  | nil => exact hc
  | cons k ks ih =>
    simp only [TcpConnection.allFit, Bool.and_eq_true] at hfit
    exact ih (.call k hc (hopen k List.mem_cons_self c) (TcpConnection.returns_of_fits hfit.1))
      (fun k' hk' => hopen k' (List.mem_cons_of_mem k hk')) hfit.2

def handshaken (options : List TcpOption) : TcpConnection :=
  (TcpConnection.newServer serverAddr peerAddr 1000).callAll (handshake options)

end SystemsLab.Tcp
