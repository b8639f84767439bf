import FilterChain.Log

/-!
# Log channels

A channel hands every entry to each of its subscribers, from the moment of subscription on. It
keeps the newest entries only: a subscriber that has fallen further behind is told once how many
it missed, and goes on with the oldest entry that is kept.
-/

namespace FilterChain.Log

def capacity : Nat := 256

inductive Delivery where
  | entry (entry : Entry)
  | lagged (missed : Nat)
  deriving DecidableEq, Repr

/-- A subscriber, known by how many entries had been published before the next one for it. -/
structure Receiver where
  next : Nat
  deriving DecidableEq, Repr

namespace Receiver

def backlog (history : List Entry) (r : Receiver) : Nat :=
  history.length - r.next

def receive? (history : List Entry) (r : Receiver) : Option (Delivery × Receiver) :=
  let behind := r.backlog history
  if capacity < behind then
    some (.lagged (behind - capacity), ⟨history.length - capacity⟩)
  else
    match history[r.next]? with
    | some entry => some (.entry entry, ⟨r.next + 1⟩)
    | none => none

theorem backlog_lt_of_receive? {history : List Entry} {r s : Receiver} {d : Delivery}
    (h : r.receive? history = some (d, s)) : s.backlog history < r.backlog history := by
  unfold receive? at h
  simp only at h
  split at h
  · next hc =>
    simp only [Option.some.injEq, Prod.mk.injEq] at h
    rw [← h.2]
    simp only [backlog] at hc ⊢
    omega
  · split at h
    · next e he =>
      simp only [Option.some.injEq, Prod.mk.injEq] at h
      have hlt := (List.getElem?_eq_some_iff.mp he).1
      rw [← h.2]
      simp only [backlog]
      omega
    · simp at h

def drain (history : List Entry) (r : Receiver) : List Delivery × Receiver :=
  match _h : r.receive? history with
  | none => ([], r)
  | some (d, s) =>
    let (ds, last) := drain history s
    (d :: ds, last)
termination_by r.backlog history
decreasing_by exact backlog_lt_of_receive? _h

end Receiver

/-- A channel: all entries published on it, its subscribers in the order of subscription, and
whether it echoes entries to the console. -/
structure Channel where
  echo : Bool
  history : List Entry
  receivers : List Receiver
  deriving DecidableEq, Repr

namespace Channel

def empty : Channel :=
  ⟨false, [], []⟩

def setEcho (on : Bool) (channel : Channel) : Channel :=
  { channel with echo := on }

def publish (entry : Entry) (channel : Channel) : Channel :=
  { channel with history := channel.history ++ [entry] }

def publishAll (entries : List Entry) (channel : Channel) : Channel :=
  entries.foldl (fun channel entry => channel.publish entry) channel

def echoed (entry : Entry) (channel : Channel) : String :=
  if channel.echo then entry.render ++ "\n" else ""

/-- Adds a subscriber, whose number is the count of those before it. -/
def subscribe (channel : Channel) : Channel :=
  { channel with receivers := channel.receivers ++ [⟨channel.history.length⟩] }

def receive (subscriber : Nat) (channel : Channel) : Option Delivery × Channel :=
  match channel.receivers[subscriber]? with
  | none => (none, channel)
  | some r =>
    match r.receive? channel.history with
    | none => (none, channel)
    | some (d, s) => (some d, { channel with receivers := channel.receivers.set subscriber s })

def drain (subscriber : Nat) (channel : Channel) : List Delivery × Channel :=
  match channel.receivers[subscriber]? with
  | none => ([], channel)
  | some r =>
    let (ds, s) := r.drain channel.history
    (ds, { channel with receivers := channel.receivers.set subscriber s })

end Channel

end FilterChain.Log
