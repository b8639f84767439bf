import FilterChain.Service.EventStream

/-!
# What subscribers receive

The entries that have been published since a subscription are those that the subscriber has
received or has been told to have missed, in order, and then those that wait for it. This holds at
the moment of subscription, and whatever happens on the channel keeps it.
-/

namespace FilterChain.Log

/-- Deliveries that tell of each of some entries in order, either by handing it over or by counting
it among those that were missed. -/
inductive Covers : List Delivery → List Entry → Prop where
  | nil : Covers [] []
  | entry {ds : List Delivery} {es : List Entry} (e : Entry) (h : Covers ds es) :
      Covers (.entry e :: ds) (e :: es)
  | lagged {ds : List Delivery} {es : List Entry} (missed : List Entry) (h : Covers ds es) :
      Covers (.lagged missed.length :: ds) (missed ++ es)

def Delivery.missed : List Delivery → Nat
  | [] => 0
  | .entry _ :: ds => missed ds
  | .lagged n :: ds => n + missed ds

namespace Covers

variable {ds others : List Delivery} {es more : List Entry}

theorem append (h : Covers ds es) (hmore : Covers others more) :
    Covers (ds ++ others) (es ++ more) := by
  induction h with
  | nil => exact hmore
  | entry e _ ih => exact .entry e ih
  | lagged missed _ ih =>
    rw [List.append_assoc]
    exact .lagged missed ih

theorem entries_sublist (h : Covers ds es) : (Delivery.entries ds).Sublist es := by
  induction h with
  | nil => exact .slnil
  | entry e _ ih => exact ih.cons_cons e
  | lagged missed _ ih => exact ih.trans (List.sublist_append_right missed _)

theorem length_eq (h : Covers ds es) :
    (Delivery.entries ds).length + Delivery.missed ds = es.length := by
  induction h with
  | nil => rfl
  | entry e _ ih =>
    simp only [Delivery.entries, Delivery.missed, List.length_cons]
    omega
  | lagged missed _ ih =>
    simp only [Delivery.entries, Delivery.missed, List.length_append]
    omega

end Covers

namespace Receiver

variable {history : List Entry} {r s : Receiver} {d : Delivery} {e : Entry}

/-- The entries that have been published and that a subscriber has not been told of. -/
def waiting (history : List Entry) (r : Receiver) : List Entry :=
  history.drop r.next

theorem length_waiting (history : List Entry) (r : Receiver) :
    (r.waiting history).length = r.backlog history := by
  simp [waiting, backlog]

theorem receive?_of_lt (h : capacity < r.backlog history) :
    r.receive? history =
      some (.lagged (r.backlog history - capacity), ⟨history.length - capacity⟩) := by
  simp only [receive?, if_pos h]

theorem receive?_of_le (h : r.backlog history ≤ capacity) :
    r.receive? history =
      (r.waiting history).head?.map fun e => (.entry e, ⟨r.next + 1⟩) := by
  rw [receive?, if_neg (by omega), waiting, List.head?_drop]
  cases history[r.next]? <;> rfl

theorem waiting_succ {rest : List Entry} (h : r.waiting history = e :: rest) :
    waiting history ⟨r.next + 1⟩ = rest := by
  rw [waiting, ← List.tail_drop]
  exact congrArg List.tail h

theorem waiting_of_lt (h : capacity < r.backlog history) :
    waiting history ⟨history.length - capacity⟩ =
      (r.waiting history).drop (r.backlog history - capacity) := by
  have hnext : history.length - capacity = r.next + (r.backlog history - capacity) := by
    simp only [backlog] at h ⊢
    omega
  rw [waiting, waiting, hnext, List.drop_drop]

theorem covers_of_receive? (hr : r.next ≤ history.length)
    (h : r.receive? history = some (d, s)) :
    s.next ≤ history.length ∧
      ∃ seen, r.waiting history = seen ++ s.waiting history ∧ Covers [d] seen := by
  by_cases hlag : capacity < r.backlog history
  · rw [receive?_of_lt hlag] at h
    obtain ⟨rfl, rfl⟩ := Prod.mk.inj (Option.some.inj h)
    refine ⟨Nat.sub_le _ _, (r.waiting history).take (r.backlog history - capacity), ?_, ?_⟩
    · rw [waiting_of_lt hlag, List.take_append_drop]
    · have hcount : ((r.waiting history).take (r.backlog history - capacity)).length =
          r.backlog history - capacity := by
        rw [List.length_take, length_waiting]
        omega
      have hcovers := Covers.lagged ((r.waiting history).take (r.backlog history - capacity)) .nil
      rwa [hcount, List.append_nil] at hcovers
  · rw [receive?_of_le (by omega)] at h
    cases hwaiting : r.waiting history with
    | nil =>
      rw [hwaiting] at h
      cases h
    | cons e rest =>
      rw [hwaiting] at h
      obtain ⟨rfl, rfl⟩ := Prod.mk.inj (Option.some.inj h)
      refine ⟨?_, [e], ?_, .entry e .nil⟩
      · have hlength := length_waiting history r
        rw [hwaiting] at hlength
        simp only [backlog, List.length_cons] at hlength ⊢
        omega
      · rw [waiting_succ hwaiting]
        rfl

theorem drain_of_le (hr : r.next ≤ history.length) (h : r.backlog history ≤ capacity) :
    r.drain history = ((r.waiting history).map .entry, ⟨history.length⟩) := by
  -- Draining recurses on what is left of the backlog; a gap cannot open while it shrinks.
  induction hn : r.backlog history generalizing r with
  | zero =>
    have hwaiting : r.waiting history = [] := by
      rw [← List.length_eq_zero_iff, length_waiting, hn]
    have hnext : r = ⟨history.length⟩ := by
      simp only [backlog] at hn
      cases r
      simp only [Receiver.mk.injEq] at hr hn ⊢
      omega
    rw [drain]
    split
    · rw [hwaiting]
      exact Prod.ext rfl hnext
    · next heq => simp [receive?_of_le h, hwaiting] at heq
  | succ n ih =>
    obtain ⟨e, rest, hwaiting⟩ : ∃ e rest, r.waiting history = e :: rest := by
      rw [← List.length_pos_iff_exists_cons, length_waiting]
      omega
    rw [drain]
    split
    · next heq => simp [receive?_of_le h, hwaiting] at heq
    · next d s heq =>
      rw [receive?_of_le h, hwaiting] at heq
      obtain ⟨rfl, rfl⟩ := Prod.mk.inj (Option.some.inj heq)
      simp only [backlog] at hn h
      rw [ih (by simp only; omega) (by simp only [backlog]; omega) (by simp only [backlog]; omega),
        waiting_succ hwaiting, hwaiting]
      rfl

theorem drain_of_lt (h : capacity < r.backlog history) :
    r.drain history =
      (.lagged (r.backlog history - capacity) ::
        (history.drop (history.length - capacity)).map .entry, ⟨history.length⟩) := by
  rw [drain]
  split
  · next heq => simp [receive?_of_lt h] at heq
  · next d s heq =>
    rw [receive?_of_lt h] at heq
    obtain ⟨rfl, rfl⟩ := Prod.mk.inj (Option.some.inj heq)
    have hlength : capacity < history.length := Nat.lt_of_lt_of_le h (Nat.sub_le _ _)
    rw [drain_of_le (Nat.sub_le _ _) (by simp only [backlog]; omega)]
    rfl

end Receiver

inductive Action where
  | publish (entry : Entry)
  | subscribe
  | receive (subscriber : Nat)
  | setEcho (on : Bool)
  deriving DecidableEq, Repr

namespace Action

def published : Action → List Entry
  | .publish entry => [entry]
  | _ => []

/-- Whether an action is one of those on which the deliveries to a subscriber may depend. -/
def concerns (subscriber : Nat) : Action → Bool
  | .publish _ => true
  | .subscribe => true
  | .receive i => i = subscriber
  | .setEcho _ => false

end Action

def published (actions : List Action) : List Entry :=
  actions.flatMap Action.published

namespace Channel

variable {channel other : Channel} {subscriber : Nat} {actions quiet : List Action}

def after (channel : Channel) : Action → Channel
  | .publish entry => channel.publish entry
  | .subscribe => channel.subscribe
  | .receive i => (channel.receive i).2
  | .setEcho on => channel.setEcho on

def afterAll (channel : Channel) : List Action → Channel
  | [] => channel
  | action :: actions => (channel.after action).afterAll actions

def told (channel : Channel) (subscriber : Nat) : Action → List Delivery
  | .receive i => if i = subscriber then (channel.receive i).1.toList else []
  | _ => []

def toldAll (channel : Channel) (subscriber : Nat) : List Action → List Delivery
  | [] => []
  | action :: actions =>
    channel.told subscriber action ++ (channel.after action).toldAll subscriber actions

theorem afterAll_append (channel : Channel) (front back : List Action) :
    channel.afterAll (front ++ back) = (channel.afterAll front).afterAll back := by
  induction front generalizing channel with
  | nil => rfl
  | cons action front ih => exact ih _

theorem toldAll_append (channel : Channel) (subscriber : Nat) (front back : List Action) :
    channel.toldAll subscriber (front ++ back) =
      channel.toldAll subscriber front ++ (channel.afterAll front).toldAll subscriber back := by
  induction front generalizing channel with
  | nil => rfl
  | cons action front ih =>
    rw [List.cons_append, toldAll, toldAll, ih, List.append_assoc]
    rfl

def backlog (channel : Channel) (subscriber : Nat) : Nat :=
  channel.receivers[subscriber]?.elim 0 (Receiver.backlog channel.history)

def waiting (channel : Channel) (subscriber : Nat) : List Entry :=
  channel.receivers[subscriber]?.elim [] (Receiver.waiting channel.history)

/-- A subscriber is there, and has not been told of more than there is. -/
def Serves (channel : Channel) (subscriber : Nat) : Prop :=
  ∃ r, channel.receivers[subscriber]? = some r ∧ r.next ≤ channel.history.length

theorem length_waiting (channel : Channel) (subscriber : Nat) :
    (channel.waiting subscriber).length = channel.backlog subscriber := by
  rw [waiting, backlog]
  cases channel.receivers[subscriber]? with
  | none => rfl
  | some r => exact Receiver.length_waiting _ _

theorem receive_eq_of_none {r : Receiver} (h : channel.receivers[subscriber]? = some r)
    (hr : r.receive? channel.history = none) : channel.receive subscriber = (none, channel) := by
  simp only [receive, h, hr]

theorem receive_eq_of_some {r s : Receiver} {d : Delivery}
    (h : channel.receivers[subscriber]? = some r)
    (hr : r.receive? channel.history = some (d, s)) :
    channel.receive subscriber =
      (some d, { channel with receivers := channel.receivers.set subscriber s }) := by
  simp only [receive, h, hr]

theorem history_receive (channel : Channel) (i : Nat) :
    (channel.receive i).2.history = channel.history := by
  unfold receive
  split
  · rfl
  · split <;> rfl

theorem length_receivers_receive (channel : Channel) (i : Nat) :
    (channel.receive i).2.receivers.length = channel.receivers.length := by
  unfold receive
  split
  · rfl
  · split
    · rfl
    · exact List.length_set

theorem getElem?_receive_of_ne {i : Nat} (h : i ≠ subscriber) :
    (channel.receive i).2.receivers[subscriber]? = channel.receivers[subscriber]? := by
  unfold receive
  split
  · rfl
  · split
    · rfl
    · exact List.getElem?_set_ne h

theorem after_of_idle {action : Action} (h : channel.Serves subscriber)
    (hnothing : action.published = []) (hne : action ≠ .receive subscriber) :
    (channel.after action).history = channel.history ∧
      (channel.after action).receivers[subscriber]? = channel.receivers[subscriber]? ∧
      channel.told subscriber action = [] := by
  obtain ⟨r, hr, -⟩ := h
  cases action with
  | publish entry => cases hnothing
  | subscribe =>
    have hlt := (List.getElem?_eq_some_iff.mp hr).1
    exact ⟨rfl, List.getElem?_append_left hlt, rfl⟩
  | receive i =>
    have hi : i ≠ subscriber := fun heq => hne (heq ▸ rfl)
    exact ⟨history_receive channel i, getElem?_receive_of_ne hi, if_neg hi⟩
  | setEcho on => exact ⟨rfl, rfl, rfl⟩

theorem Serves.after_publish (h : channel.Serves subscriber) (entry : Entry) :
    (channel.after (.publish entry)).Serves subscriber ∧
      (channel.after (.publish entry)).waiting subscriber =
        channel.waiting subscriber ++ [entry] := by
  obtain ⟨r, hr, hle⟩ := h
  refine ⟨⟨r, hr, ?_⟩, ?_⟩
  · simp only [after, publish, List.length_append]
    omega
  · simp only [waiting, after, publish, hr, Option.elim_some, Receiver.waiting]
    exact List.drop_append_of_le_length hle

theorem Serves.after_receive (h : channel.Serves subscriber) :
    (channel.after (.receive subscriber)).Serves subscriber ∧
      ∃ seen, channel.waiting subscriber =
          seen ++ (channel.after (.receive subscriber)).waiting subscriber ∧
        Covers (channel.told subscriber (.receive subscriber)) seen := by
  obtain ⟨r, hr, hle⟩ := h
  cases hreceive : r.receive? channel.history with
  | none =>
    simp only [after, told, receive_eq_of_none hr hreceive, if_pos]
    exact ⟨⟨r, hr, hle⟩, [], rfl, .nil⟩
  | some found =>
    obtain ⟨d, s⟩ := found
    obtain ⟨hs, seen, hsplit, hcovers⟩ := Receiver.covers_of_receive? hle hreceive
    have hlt := (List.getElem?_eq_some_iff.mp hr).1
    simp only [after, told, receive_eq_of_some hr hreceive, if_pos]
    refine ⟨⟨s, List.getElem?_set_self hlt, hs⟩, seen, ?_, hcovers⟩
    simp only [waiting, hr, List.getElem?_set_self hlt, Option.elim_some, hsplit]

/-- In one action a subscriber is told of the first of the entries that wait for it or are
published, and the others wait for it. -/
theorem Serves.step (h : channel.Serves subscriber) (action : Action) :
    (channel.after action).Serves subscriber ∧
      ∃ seen, channel.waiting subscriber ++ action.published =
          seen ++ (channel.after action).waiting subscriber ∧
        Covers (channel.told subscriber action) seen := by
  by_cases hnothing : action.published = []
  · rw [hnothing, List.append_nil]
    by_cases heq : action = .receive subscriber
    · rw [heq]
      exact h.after_receive
    · obtain ⟨hhistory, hreceiver, htold⟩ := after_of_idle h hnothing heq
      obtain ⟨r, hr, hle⟩ := h
      refine ⟨⟨r, hreceiver.trans hr, hhistory ▸ hle⟩, [], ?_, htold ▸ .nil⟩
      rw [waiting, waiting, hhistory, hreceiver, List.nil_append]
  · cases action with
    | publish entry =>
      obtain ⟨hserves, hwaiting⟩ := h.after_publish entry
      exact ⟨hserves, [], hwaiting.symm, .nil⟩
    | subscribe | receive | setEcho => exact absurd rfl hnothing

theorem Serves.run (h : channel.Serves subscriber) (actions : List Action) :
    (channel.afterAll actions).Serves subscriber ∧
      ∃ seen, channel.waiting subscriber ++ published actions =
          seen ++ (channel.afterAll actions).waiting subscriber ∧
        Covers (channel.toldAll subscriber actions) seen := by
  induction actions generalizing channel with
  | nil => exact ⟨h, [], List.append_nil _, .nil⟩
  | cons action actions ih =>
    obtain ⟨hserves, here, hhere, hcovers⟩ := h.step action
    obtain ⟨hlast, later, hlater, hrest⟩ := ih hserves
    -- What waits after the first action is split once more by what is told later.
    refine ⟨hlast, here ++ later, ?_, hcovers.append hrest⟩
    rw [published, List.flatMap_cons, ← List.append_assoc, hhere, List.append_assoc]
    rw [published] at hlater
    rw [hlater, ← List.append_assoc]
    rfl

theorem backlog_eq_of_some {r : Receiver} (h : channel.receivers[subscriber]? = some r) :
    channel.backlog subscriber = r.backlog channel.history := by
  rw [backlog, h, Option.elim_some]

theorem waiting_eq_of_some {r : Receiver} (h : channel.receivers[subscriber]? = some r) :
    channel.waiting subscriber = r.waiting channel.history := by
  rw [waiting, h, Option.elim_some]

theorem Serves.told_of_lt (h : channel.Serves subscriber)
    (hlag : capacity < channel.backlog subscriber) :
    channel.told subscriber (.receive subscriber) =
        [.lagged (channel.backlog subscriber - capacity)] ∧
      (channel.after (.receive subscriber)).waiting subscriber =
        (channel.waiting subscriber).drop (channel.backlog subscriber - capacity) := by
  obtain ⟨r, hr, hle⟩ := h
  have hlt := (List.getElem?_eq_some_iff.mp hr).1
  rw [backlog_eq_of_some hr] at hlag ⊢
  simp only [told, after, receive_eq_of_some hr (Receiver.receive?_of_lt hlag), if_pos]
  refine ⟨rfl, ?_⟩
  rw [waiting_eq_of_some (List.getElem?_set_self hlt), waiting_eq_of_some hr,
    Receiver.waiting_of_lt hlag]

theorem Serves.told_of_le (h : channel.Serves subscriber)
    (hkept : channel.backlog subscriber ≤ capacity) :
    channel.told subscriber (.receive subscriber) =
        ((channel.waiting subscriber).take 1).map .entry ∧
      (channel.after (.receive subscriber)).waiting subscriber =
        (channel.waiting subscriber).drop 1 := by
  obtain ⟨r, hr, hle⟩ := h
  have hlt := (List.getElem?_eq_some_iff.mp hr).1
  rw [backlog_eq_of_some hr] at hkept
  have hreceive := Receiver.receive?_of_le hkept
  cases hwaiting : r.waiting channel.history with
  | nil =>
    rw [hwaiting] at hreceive
    simp only [told, after, receive_eq_of_none hr hreceive, if_pos, waiting_eq_of_some hr, hwaiting]
    exact ⟨rfl, rfl⟩
  | cons e rest =>
    rw [hwaiting] at hreceive
    simp only [told, after, receive_eq_of_some hr hreceive, if_pos, waiting_eq_of_some hr, hwaiting]
    refine ⟨rfl, ?_⟩
    rw [waiting_eq_of_some (List.getElem?_set_self hlt), Receiver.waiting_succ hwaiting]
    rfl

/-- While nothing is published, a subscriber that is not behind gets one waiting entry each time
it asks, in order, as long as there are any. -/
theorem Serves.toldAll_of_quiet (h : channel.Serves subscriber)
    (hkept : channel.backlog subscriber ≤ capacity) (hquiet : published quiet = []) :
    channel.toldAll subscriber quiet =
      ((channel.waiting subscriber).take (quiet.count (.receive subscriber))).map .entry := by
  -- The bound on the backlog is carried along, as only publishing could break it.
  induction quiet generalizing channel with
  | nil => rfl
  | cons action quiet ih =>
    obtain ⟨hnothing, hrest⟩ := List.append_eq_nil_iff.mp hquiet
    have hserves := (h.step action).1
    rw [← length_waiting] at hkept
    by_cases heq : action = .receive subscriber
    · subst heq
      obtain ⟨htold, hwaiting⟩ := h.told_of_le (length_waiting channel subscriber ▸ hkept)
      have hnext : (channel.after (.receive subscriber)).backlog subscriber ≤ capacity := by
        rw [← length_waiting, hwaiting, List.length_drop]
        omega
      rw [toldAll, htold, ih hserves hnext hrest, hwaiting, List.count_cons_self, ← List.map_append,
        Nat.add_comm, List.take_add]
    · obtain ⟨hhistory, hreceiver, htold⟩ := after_of_idle h hnothing heq
      have hsame : (channel.after action).waiting subscriber = channel.waiting subscriber := by
        rw [waiting, waiting, hhistory, hreceiver]
      have hnext : (channel.after action).backlog subscriber ≤ capacity := by
        rwa [← length_waiting, hsame]
      rw [toldAll, htold, ih hserves hnext hrest, hsame, List.nil_append,
        List.count_cons_of_ne heq]

theorem Serves.toldAll_of_lag (h : channel.Serves subscriber)
    (hlag : capacity < channel.backlog subscriber) (hquiet : published quiet = []) :
    channel.toldAll subscriber (.receive subscriber :: quiet) =
      .lagged (channel.backlog subscriber - capacity) ::
        (((channel.waiting subscriber).drop (channel.backlog subscriber - capacity)).take
          (quiet.count (.receive subscriber))).map .entry := by
  obtain ⟨htold, hwaiting⟩ := h.told_of_lt hlag
  have hkept : (channel.after (.receive subscriber)).backlog subscriber ≤ capacity := by
    rw [← length_waiting, hwaiting, List.length_drop, length_waiting]
    omega
  rw [toldAll, htold, (h.step _).1.toldAll_of_quiet hkept hquiet, hwaiting]
  rfl

theorem Serves.lagged_iff (h : channel.Serves subscriber) (n : Nat) :
    (channel.receive subscriber).1 = some (.lagged n) ↔
      capacity < channel.backlog subscriber ∧ n = channel.backlog subscriber - capacity := by
  have htold : channel.told subscriber (.receive subscriber) =
      (channel.receive subscriber).1.toList := by
    simp only [told, if_pos]
  by_cases hlag : capacity < channel.backlog subscriber
  · rw [(h.told_of_lt hlag).1] at htold
    rw [Option.toList_eq_singleton_iff.mp htold.symm]
    simp only [hlag, true_and, Option.some.injEq, Delivery.lagged.injEq, eq_comm]
  · rw [(h.told_of_le (by omega)).1] at htold
    refine iff_of_false (fun hlagged => ?_) (fun hand => hlag hand.1)
    rw [hlagged, Option.toList_some] at htold
    obtain ⟨e, -, he⟩ := List.map_eq_singleton_iff.mp htold
    cases he

theorem Serves.drain_eq (h : channel.Serves subscriber) :
    channel.drain subscriber =
      ((if capacity < channel.backlog subscriber then
          .lagged (channel.backlog subscriber - capacity) ::
            ((channel.waiting subscriber).drop (channel.backlog subscriber - capacity)).map .entry
        else (channel.waiting subscriber).map .entry),
        { channel with
          receivers := channel.receivers.set subscriber ⟨channel.history.length⟩ }) := by
  obtain ⟨r, hr, hle⟩ := h
  rw [backlog_eq_of_some hr, waiting_eq_of_some hr]
  split
  · next hlag =>
    rw [← Receiver.waiting_of_lt hlag]
    simp only [drain, hr, Receiver.drain_of_lt hlag]
    rfl
  · next hkept => simp only [drain, hr, Receiver.drain_of_le hle (by omega)]

theorem Serves.backlog_drain (h : channel.Serves subscriber) :
    (channel.drain subscriber).2.backlog subscriber = 0 := by
  have hlt : subscriber < channel.receivers.length := by
    obtain ⟨r, hr, -⟩ := h
    exact (List.getElem?_eq_some_iff.mp hr).1
  rw [h.drain_eq, backlog_eq_of_some (List.getElem?_set_self hlt), Receiver.backlog, Nat.sub_self]

theorem Serves.toldAll_replicate (h : channel.Serves subscriber) {n : Nat} (hn : capacity < n) :
    channel.toldAll subscriber (List.replicate n (.receive subscriber)) =
      (channel.drain subscriber).1 := by
  have hquiet (k : Nat) : published (List.replicate k (.receive subscriber)) = [] := by
    rw [published, List.flatMap_eq_nil_iff]
    intro action haction
    rw [List.eq_of_mem_replicate haction]
    rfl
  have hlength := length_waiting channel subscriber
  rw [h.drain_eq]
  split
  · next hlag =>
    obtain ⟨k, rfl⟩ : ∃ k, n = k + 1 := ⟨n - 1, by omega⟩
    rw [List.replicate_succ, h.toldAll_of_lag hlag (hquiet k), List.count_replicate_self,
      List.take_of_length_le (by rw [List.length_drop]; omega)]
  · next hkept =>
    rw [h.toldAll_of_quiet (by omega) (hquiet n), List.count_replicate_self,
      List.take_of_length_le (by omega)]

/-- Two channels that look the same to one subscriber, now or once it is there. -/
structure Agrees (subscriber : Nat) (channel other : Channel) : Prop where
  history : channel.history = other.history
  receiver : channel.receivers[subscriber]? = other.receivers[subscriber]?
  count : channel.receivers.length = other.receivers.length

theorem Agrees.of_not_concerns (channel : Channel) {action : Action}
    (h : action.concerns subscriber = false) :
    Agrees subscriber (channel.after action) channel ∧ channel.told subscriber action = [] := by
  cases action with
  | publish | subscribe => cases h
  | setEcho on => exact ⟨⟨rfl, rfl, rfl⟩, rfl⟩
  | receive i =>
    have hi : i ≠ subscriber := by simpa [Action.concerns] using h
    exact ⟨⟨history_receive channel i, getElem?_receive_of_ne hi,
      length_receivers_receive channel i⟩, if_neg hi⟩

theorem Agrees.trans {third : Channel} (h : Agrees subscriber channel other)
    (hthird : Agrees subscriber other third) : Agrees subscriber channel third :=
  ⟨h.history.trans hthird.history, h.receiver.trans hthird.receiver, h.count.trans hthird.count⟩

theorem Agrees.after_receive (h : Agrees subscriber channel other) :
    channel.told subscriber (.receive subscriber) = other.told subscriber (.receive subscriber) ∧
      Agrees subscriber (channel.after (.receive subscriber))
        (other.after (.receive subscriber)) := by
  cases hr : channel.receivers[subscriber]? with
  | none =>
    have hother := h.receiver.symm.trans hr
    simp only [Channel.told, Channel.after, receive, hr, hother, if_pos]
    exact ⟨trivial, h⟩
  | some r =>
    have hother := h.receiver.symm.trans hr
    cases hreceive : r.receive? channel.history with
    | none =>
      have hsame := h.history ▸ hreceive
      simp only [Channel.told, Channel.after, receive_eq_of_none hr hreceive,
        receive_eq_of_none hother hsame, if_pos]
      exact ⟨trivial, h⟩
    | some found =>
      have hsame := h.history ▸ hreceive
      simp only [Channel.told, Channel.after, receive_eq_of_some hr hreceive,
        receive_eq_of_some hother hsame, if_pos]
      refine ⟨trivial, h.history, ?_, ?_⟩
      · rw [List.getElem?_set_self (List.getElem?_eq_some_iff.mp hr).1,
          List.getElem?_set_self (List.getElem?_eq_some_iff.mp hother).1]
      · rw [List.length_set, List.length_set, h.count]

theorem Agrees.step (h : Agrees subscriber channel other) {action : Action}
    (hconcerns : action.concerns subscriber = true) :
    channel.told subscriber action = other.told subscriber action ∧
      Agrees subscriber (channel.after action) (other.after action) := by
  cases action with
  | publish entry => exact ⟨rfl, congrArg (· ++ [entry]) h.history, h.receiver, h.count⟩
  | subscribe =>
    -- The newcomer has the same number on both channels only because `count` agrees.
    refine ⟨rfl, h.history, ?_, ?_⟩
    · simp only [Channel.after, subscribe, List.getElem?_append, h.receiver, h.count, h.history]
    · simp only [Channel.after, subscribe, List.length_append, h.count, List.length_singleton]
  | receive i =>
    obtain rfl : i = subscriber := by simpa [Action.concerns] using hconcerns
    exact h.after_receive
  | setEcho on => cases hconcerns

/-- A subscriber is told the same if all that is of no concern to it is left out. -/
theorem Agrees.toldAll_filter (h : Agrees subscriber channel other) (actions : List Action) :
    channel.toldAll subscriber actions =
      other.toldAll subscriber (actions.filter (Action.concerns subscriber)) := by
  induction actions generalizing channel other with
  | nil => rfl
  | cons action actions ih =>
    cases hconcerns : action.concerns subscriber with
    | true =>
      obtain ⟨htold, hafter⟩ := h.step hconcerns
      rw [List.filter_cons_of_pos hconcerns, toldAll, toldAll, htold, ih hafter]
    | false =>
      obtain ⟨hafter, htold⟩ := Agrees.of_not_concerns channel hconcerns
      rw [List.filter_cons_of_neg (by simp [hconcerns]), toldAll, htold, ih (hafter.trans h)]
      rfl

theorem length_receivers_after (channel : Channel) (action : Action) :
    (channel.after action).receivers.length =
      channel.receivers.length + [action].count .subscribe := by
  cases action with
  | publish | setEcho => rfl
  | subscribe => exact List.length_append
  | receive i => exact length_receivers_receive channel i

theorem length_receivers_afterAll (channel : Channel) (actions : List Action) :
    (channel.afterAll actions).receivers.length =
      channel.receivers.length + actions.count .subscribe := by
  induction actions generalizing channel with
  | nil => rfl
  | cons action actions ih =>
    rw [afterAll, ih, length_receivers_after, Nat.add_assoc, ← List.count_append]
    rfl

theorem told_of_length_le (h : channel.receivers.length ≤ subscriber) (action : Action) :
    channel.told subscriber action = [] := by
  cases action with
  | publish | subscribe | setEcho => rfl
  | receive i =>
    by_cases hi : i = subscriber
    · subst hi
      simp only [told, receive, List.getElem?_eq_none h, if_pos, Option.toList_none]
    · exact if_neg hi

theorem toldAll_of_length_le
    (h : channel.receivers.length + actions.count .subscribe ≤ subscriber) :
    channel.toldAll subscriber actions = [] := by
  induction actions generalizing channel with
  | nil => rfl
  | cons action actions ih =>
    rw [← List.singleton_append, List.count_append, ← Nat.add_assoc] at h
    rw [toldAll, told_of_length_le (by omega), ih (length_receivers_after channel action ▸ h)]
    rfl

theorem serves_subscribe (channel : Channel) :
    channel.subscribe.Serves channel.receivers.length ∧
      channel.subscribe.waiting channel.receivers.length = [] := by
  have hnew : channel.subscribe.receivers[channel.receivers.length]? =
      some ⟨channel.history.length⟩ := List.getElem?_concat_length
  refine ⟨⟨_, hnew, Nat.le_refl _⟩, ?_⟩
  rw [waiting_eq_of_some hnew]
  exact List.drop_length

end Channel

/-- What happens on a new channel before one of its subscribers comes, and after that. -/
structure Subscription where
  before : List Action
  after : List Action
  deriving DecidableEq, Repr

namespace Subscription

variable (s : Subscription)

def actions : List Action :=
  s.before ++ .subscribe :: s.after

def subscriber : Nat :=
  s.before.count .subscribe

def channel : Channel :=
  Channel.empty.afterAll s.actions

def published : List Entry :=
  Log.published s.after

def received : List Delivery :=
  Channel.empty.toldAll s.subscriber s.actions

def backlog : Nat :=
  s.channel.backlog s.subscriber

def start : Channel :=
  (Channel.empty.afterAll s.before).subscribe

theorem channel_eq : s.channel = s.start.afterAll s.after :=
  Channel.afterAll_append _ _ _

theorem length_receivers_before :
    (Channel.empty.afterAll s.before).receivers.length = s.subscriber := by
  rw [Channel.length_receivers_afterAll]
  exact Nat.zero_add _

theorem received_eq : s.received = s.start.toldAll s.subscriber s.after := by
  rw [received, actions, Channel.toldAll_append,
    Channel.toldAll_of_length_le (Nat.le_of_eq (Nat.zero_add _))]
  rfl

theorem serves_start : s.start.Serves s.subscriber ∧ s.start.waiting s.subscriber = [] :=
  s.length_receivers_before ▸ Channel.serves_subscribe _

theorem serves : s.channel.Serves s.subscriber :=
  s.channel_eq ▸ (s.serves_start.1.run s.after).1

/-- What has been published is what the subscriber has been told of, and then what waits for it. -/
theorem account :
    ∃ seen, s.published = seen ++ s.channel.waiting s.subscriber ∧ Covers s.received seen := by
  obtain ⟨hserves, hnothing⟩ := s.serves_start
  obtain ⟨-, seen, hsplit, hcovers⟩ := hserves.run s.after
  rw [hnothing, List.nil_append, ← s.channel_eq] at hsplit
  exact ⟨seen, hsplit, s.received_eq ▸ hcovers⟩

theorem received_continued (more : List Action) :
    received ⟨s.before, s.after ++ more⟩ =
      s.received ++ s.channel.toldAll s.subscriber more := by
  rw [received_eq, received_eq, channel_eq, ← Channel.toldAll_append]
  rfl

theorem entries_received_sublist : (Delivery.entries s.received).Sublist s.published := by
  obtain ⟨seen, hsplit, hcovers⟩ := s.account
  rw [hsplit]
  exact hcovers.entries_sublist.trans (List.sublist_append_left _ _)

theorem length_published :
    (Delivery.entries s.received).length + Delivery.missed s.received + s.backlog =
      s.published.length := by
  obtain ⟨seen, hsplit, hcovers⟩ := s.account
  rw [hsplit, List.length_append, hcovers.length_eq, Channel.length_waiting]
  rfl

theorem received_after_lag {quiet : List Action} (hquiet : Log.published quiet = [])
    (hlag : capacity < s.backlog) :
    received ⟨s.before, s.after ++ .receive s.subscriber :: quiet⟩ =
      s.received ++ .lagged (s.backlog - capacity) ::
        ((s.published.drop (s.published.length - capacity)).take
          (quiet.count (.receive s.subscriber))).map .entry := by
  obtain ⟨seen, hsplit, -⟩ := s.account
  have hlength : (s.channel.waiting s.subscriber).length = s.backlog :=
    Channel.length_waiting s.channel s.subscriber
  have hcut : s.published.length - capacity = seen.length + (s.backlog - capacity) := by
    rw [hsplit, List.length_append, hlength]
    omega
  have hnewest : s.published.drop (s.published.length - capacity) =
      (s.channel.waiting s.subscriber).drop (s.backlog - capacity) := by
    rw [hcut, hsplit, List.drop_append, List.drop_of_length_le (Nat.le_add_right _ _),
      Nat.add_sub_cancel_left, List.nil_append]
  rw [received_continued, hnewest]
  exact congrArg _ (s.serves.toldAll_of_lag hlag hquiet)

theorem received_drained {n : Nat} (hn : capacity < n) :
    received ⟨s.before, s.after ++ List.replicate n (.receive s.subscriber)⟩ =
      s.received ++ (s.channel.drain s.subscriber).1 := by
  rw [received_continued, s.serves.toldAll_replicate hn]

def only (number : Nat) (s : Subscription) : Subscription :=
  ⟨s.before.filter (Action.concerns number), s.after.filter (Action.concerns number)⟩

theorem subscriber_only (number : Nat) : (s.only number).subscriber = s.subscriber :=
  List.count_filter rfl

theorem received_only : (s.only s.subscriber).received = s.received := by
  have hactions : (s.only s.subscriber).actions =
      s.actions.filter (Action.concerns s.subscriber) := by
    rw [actions, actions, List.filter_append, List.filter_cons_of_pos rfl]
    rfl
  rw [received, received, hactions, subscriber_only]
  exact (Channel.Agrees.toldAll_filter ⟨rfl, rfl, rfl⟩ _).symm

theorem received_eq_of_only_eq {other : Subscription}
    (h : other.only s.subscriber = s.only s.subscriber) : other.received = s.received := by
  have hnumber : other.subscriber = s.subscriber := by
    rw [← subscriber_only other s.subscriber, h, subscriber_only]
  rw [← received_only other, hnumber, h, received_only]

/-- No entry is lost or handed over twice without a word. Whatever happens on a channel, its
subscribers are handed entries that were published after they subscribed, in order; those that are
missed are counted, and the others wait. Missed entries are reported when more wait than the channel
keeps, and then the newest follow. Draining is asking until nothing waits. Only what is published,
and what a subscriber itself asks for, makes a difference to what it is told. -/
theorem nothing_is_lost_silently (s : Subscription) :
    (Delivery.entries s.received).Sublist s.published ∧
    (Delivery.entries s.received).length + Delivery.missed s.received + s.backlog =
      s.published.length ∧
    (∀ n, (s.channel.receive s.subscriber).1 = some (.lagged n) ↔
      capacity < s.backlog ∧ n = s.backlog - capacity) ∧
    (∀ quiet, Log.published quiet = [] → capacity < s.backlog →
      received ⟨s.before, s.after ++ .receive s.subscriber :: quiet⟩ =
        s.received ++ .lagged (s.backlog - capacity) ::
          ((s.published.drop (s.published.length - capacity)).take
            (quiet.count (.receive s.subscriber))).map .entry) ∧
    (s.channel.drain s.subscriber).2.backlog s.subscriber = 0 ∧
    (∀ n, capacity < n →
      received ⟨s.before, s.after ++ List.replicate n (.receive s.subscriber)⟩ =
        s.received ++ (s.channel.drain s.subscriber).1) ∧
    (∀ other : Subscription, other.only s.subscriber = s.only s.subscriber →
      other.received = s.received) :=
  ⟨s.entries_received_sublist, s.length_published, s.serves.lagged_iff,
    fun _ hquiet hlag => s.received_after_lag hquiet hlag, s.serves.backlog_drain,
    fun _ hn => s.received_drained hn, fun _ h => s.received_eq_of_only_eq h⟩

/-- Two more entries than a channel keeps. The second subscriber is told of two missed ones and is
then handed kept ones, whatever the first one asks for and whether or not entries are echoed. -/
theorem nothing_is_lost_silently_two_behind :
    let s : Subscription := ⟨[.subscribe], List.replicate 258 (.publish (.info "x"))⟩
    let other : Subscription := ⟨[.setEcho true, .subscribe], .receive 0 :: s.after⟩
    Log.published [.receive 0, .receive 1] = [] ∧ capacity < s.backlog ∧
      received ⟨s.before, s.after ++ [.receive 1, .receive 0, .receive 1]⟩ =
        [.lagged 2, .entry (.info "x")] ∧
      received ⟨s.before, s.after ++ List.replicate 257 (.receive 1)⟩ =
        (s.channel.drain 1).1 ∧
      other.only 1 = s.only 1 ∧ other.received = [] := by
  intro s other
  have hquiet : Log.published [.receive 0, .receive 1] = [] := rfl
  have hnumber : s.subscriber = 1 := rfl
  have hlag : capacity < s.backlog := by decide +kernel
  have honly : other.only 1 = s.only 1 := by decide +kernel
  have hnothing : s.received = [] := by decide +kernel
  have hbehind : s.backlog - capacity = 2 := by decide +kernel
  have hnewest : (s.published.drop (s.published.length - capacity)).take 1 = [.info "x"] := by
    decide +kernel
  obtain ⟨-, -, -, hafter, -, hdrained, hsame⟩ := nothing_is_lost_silently s
  rw [hnumber, hnothing] at hdrained hsame
  refine ⟨hquiet, hlag, ?_, hdrained 257 (by decide), honly, hsame other honly⟩
  have htold := hafter _ hquiet hlag
  have hasked : [Action.receive 0, .receive 1].count (.receive 1) = 1 := rfl
  simp only [hnumber, hnothing, hbehind, hasked, hnewest, List.nil_append] at htold
  exact htold

end Subscription

end FilterChain.Log
