import Deferral.Proofs.System.Growth

/-!
# The channel of a one-item stream

The outcome of a one-item stream is forwarded through a channel with room for one item, by a
callback that is registered once. So there is always room for it, and the one attempt to send fails
only if the stream is gone.

Main statements:
* `Forwards.handling`, `Forwards.attach`, `Forwards.publish`: whatever happens to a consumer, its
  channel is sent through once at most.
* `forwards_run`: so it is in every run.
-/

namespace Deferral

variable {V : Type}

/-- A receiver takes the item out, or leaves a waker behind. -/
theorem Channel.receive_leaves {A : Type} {c c' : Channel A} {w : Waker} {o? : Option (Option A)}
    (h : c.receive w = (c', o?)) : c'.sending = c.sending ∧ c'.receiving = c.receiving ∧
      (c.item = none → c'.item = none) := by
  unfold receive at h
  split at h
  · cases h
    exact ⟨rfl, rfl, fun _ => rfl⟩
  · split at h <;> cases h <;> exact ⟨rfl, rfl, id⟩

namespace Consumer

/-- How far a consumer has come with sending through its channel. -/
inductive Sends (c : Consumer V) : Prop
  /-- Nothing was sent, and at most one callback is to send. -/
  | before (hsendings : c.sendings = []) (hitem : c.channel.item = none)
      (honce : c.attaching = some .forward → c.cell.callback ≠ some .forward) : Sends c
  /-- The item was sent, or refused for want of a receiver, and no callback is to send. -/
  | after (sending : Sending) (hsendings : c.sendings = [sending])
      (hroom : sending = .sent ∨ sending = .refused ∧ c.channel.receiving = false)
      (hsending : c.channel.sending = false) (hattaching : c.attaching ≠ some .forward)
      (hcallback : c.cell.callback ≠ some .forward) : Sends c

/-- The channel of a consumer is that of a one-item stream. -/
structure Forwards (c : Consumer V) : Prop where
  /-- It is sent through once at most. -/
  sends : c.Sends
  /-- Without a receiver there is no stream. -/
  gone : c.channel.receiving = false → ∀ stage, c.handle ≠ .stream stage
  /-- Until the stream is polled, nobody is to send. -/
  idle : c.handle = .reservation ∨ c.handle = .stream .idle →
    c.sendings = [] ∧ c.channel = {} ∧ c.attaching = none ∧ c.cell.callback = none

variable {c c' : Consumer V}

/-- What happens to a consumer without any sending and without a further callback
that is to send. -/
theorem Sends.mono (h : c.Sends) (hsendings : c'.sendings = c.sendings)
    (hitem : c.channel.item = none → c'.channel.item = none)
    (hsending : c'.channel.sending = c.channel.sending)
    (hreceiving : c.channel.receiving = false → c'.channel.receiving = false)
    (hattaching : c'.attaching = some .forward → c.attaching = some .forward)
    (hcallback : c'.cell.callback = some .forward → c.cell.callback = some .forward) :
    c'.Sends := by
  cases h with
  | before hnone hempty honce =>
    exact .before (hsendings.trans hnone) (hitem hempty) fun ha hc =>
      honce (hattaching ha) (hcallback hc)
  | after sending hone hroom hover ha hc =>
    exact .after sending (hsendings.trans hone) (hroom.imp_right (And.imp_right hreceiving))
      (hsending.trans hover) (fun ha' => ha (hattaching ha')) fun hc' => hc (hcallback hc')

/-- The channel stays as it is, and a handle that does not read from it does not matter. -/
theorem Sends.forwards (h : c.Sends) (hstream : ∀ stage, c.handle ≠ .stream stage)
    (hreservation : c.handle ≠ .reservation) : c.Forwards where
  sends := h
  gone _ := hstream
  idle hidle := by
    rcases hidle with hidle | hidle
    · exact absurd hidle hreservation
    · exact absurd hidle (hstream .idle)

/-- A handle that does not read from the channel takes the place of the one that there was. -/
theorem Forwards.turn (h : c.Forwards) {handle : Handle} (hstream : ∀ stage, handle ≠ .stream stage)
    (hreservation : handle ≠ .reservation) : { c with handle }.Forwards :=
  Sends.forwards (h.sends.mono rfl id rfl id id id) hstream hreservation

/-- What becomes of the cell does not matter, as long as no callback is registered that sends. -/
theorem Forwards.withCell (h : c.Forwards) {cell : Cell Waker (Outcome V)}
    (hcallback : cell.callback = c.cell.callback) : { c with cell }.Forwards where
  sends := h.sends.mono rfl id rfl id id fun hc => hcallback ▸ hc
  gone := h.gone
  idle hidle := by
    obtain ⟨hsendings, hchannel, hattaching, hnone⟩ := h.idle hidle
    exact ⟨hsendings, hchannel, hattaching, hcallback.trans hnone⟩

/-! ## Sending -/

/-- A callback that sends through a channel that was not used finds room. -/
theorem sends_invoke_forward (o : Outcome V) (hsendings : c.sendings = [])
    (hitem : c.channel.item = none) (hattaching : c.attaching ≠ some .forward)
    (hcallback : c.cell.callback ≠ some .forward) : (invoke .forward o c).Sends := by
  refine .after (if c.channel.receiving then .sent else .refused) ?_ ?_ ?_ hattaching hcallback
  · show c.sendings ++ [(c.channel.sendLast o).2.1] = _
    rw [hsendings, Channel.sendLast_of_empty o hitem]
    rfl
  · show _ ∨ _ ∧ (c.channel.sendLast o).1.receiving = false
    cases hreceiving : c.channel.receiving with
    | true => exact .inl rfl
    | false => exact .inr ⟨rfl, by simp [Channel.sendLast, Channel.trySend, hreceiving]⟩
  · rfl

/-- Sending leaves the receiver where it is. -/
theorem receiving_invoke (callback : Callback) (o : Outcome V) (c : Consumer V) :
    (invoke callback o c).channel.receiving = c.channel.receiving := by
  cases callback with
  | report => rfl
  | forward =>
    show (c.channel.trySend o).1.receiving = _
    unfold Channel.trySend
    split
    · rfl
    · split <;> rfl

theorem invoke_report_forwards (h : c.Forwards) (o : Outcome V) :
    (invoke .report o c).Forwards where
  sends := h.sends.mono rfl id rfl id id id
  gone := h.gone
  idle := h.idle

/-- The callback that sends takes the item to the receiver, if that is there. -/
theorem invoke_forward_forwards (o : Outcome V) (hsends : (invoke .forward o c).Sends)
    (hgone : c.channel.receiving = false → ∀ stage, c.handle ≠ .stream stage)
    (hidle : c.handle ≠ .reservation ∧ c.handle ≠ .stream .idle) :
    (invoke .forward o c).Forwards where
  sends := hsends
  gone hreceiving := hgone ((receiving_invoke .forward o c).symm.trans hreceiving)
  idle h := (h.elim hidle.1 hidle.2).elim

/-- A consumer whose callback sends is that of a stream that was polled. -/
theorem Forwards.not_idle (h : c.Forwards)
    (hsends : c.attaching = some .forward ∨ c.cell.callback = some .forward) :
    c.handle ≠ .reservation ∧ c.handle ≠ .stream .idle := by
  constructor <;> intro hhandle
  all_goals
    obtain ⟨-, -, hattaching, hcallback⟩ := h.idle (by simp [hhandle])
    rw [hattaching, hcallback] at hsends
    simp at hsends

/-- Publishing sends an outcome that is to be forwarded. -/
theorem Forwards.publish (h : c.Forwards) (o : Outcome V) : (c.publish o).Forwards := by
  unfold Consumer.publish
  cases hcallback : c.cell.callback with
  | none =>
    rw [Cell.publish_of_no_callback hcallback]
    have hcell : { c with cell := { c.cell with slot := .ready o, waker := none } }.Forwards :=
      h.withCell rfl
    exact ⟨hcell.sends.mono rfl id rfl id id id, hcell.gone, hcell.idle⟩
  | some callback =>
    rw [Cell.publish_of_callback hcallback]
    cases callback with
    | report =>
      apply invoke_report_forwards
      refine ⟨h.sends.mono rfl id rfl id id nofun, h.gone, fun hidle => ?_⟩
      obtain ⟨hsendings, hchannel, hattaching, -⟩ := h.idle hidle
      exact ⟨hsendings, hchannel, hattaching, rfl⟩
    | forward =>
      refine invoke_forward_forwards o ?_ h.gone (h.not_idle (.inr hcallback))
      cases h.sends with
      | before hsendings hitem honce =>
        exact sends_invoke_forward o hsendings hitem (fun ha => honce ha hcallback) nofun
      | after _ _ _ _ _ hnone => exact absurd hcallback hnone

/-- A callback of the caller is registered without any sending. -/
theorem Forwards.register_report (h : c.Forwards)
    (hidle : c.handle ≠ .reservation ∧ c.handle ≠ .stream .idle) :
    (register .report c).Forwards := by
  cases c.registers .report with
  | registered _ hregister =>
    rw [hregister]
    exact ⟨h.sends.mono rfl id rfl id id nofun, h.gone, fun hh => (hh.elim hidle.1 hidle.2).elim⟩
  | invoked hcell hregister =>
    rw [hregister]
    exact invoke_report_forwards (h.withCell (Cell.callback_of_take? hcell)) _

/-- Registering the callback that waited for the launch sends an outcome that is there. -/
theorem Forwards.attach (h : c.Forwards) : c.attach.Forwards := by
  unfold Consumer.attach
  cases hattaching : c.attaching with
  | none => exact h
  | some callback =>
    show (register callback { c with attaching := none }).Forwards
    have hdone : { c with attaching := none }.Forwards :=
      ⟨h.sends.mono rfl id rfl id nofun id, h.gone, fun hidle => by
        obtain ⟨hsendings, hchannel, -, hcallback⟩ := h.idle hidle
        exact ⟨hsendings, hchannel, rfl, hcallback⟩⟩
    cases callback with
    | report =>
      apply hdone.register_report
      constructor <;> intro hhandle
      all_goals
        obtain ⟨-, -, hnone, -⟩ := h.idle (by simp_all)
        cases hattaching.symm.trans hnone
    | forward =>
      have hnot := h.not_idle (.inl hattaching)
      cases h.sends with
      | after _ _ _ _ hnone => exact absurd hattaching hnone
      | before hsendings hitem honce =>
        -- The callback waited, so it was not registered before, and nothing was sent.
        cases ({ c with attaching := none } : Consumer V).registers .forward with
        | registered _ hregister =>
          rw [hregister]
          exact ⟨.before hsendings hitem nofun, h.gone, fun hh => (hh.elim hnot.1 hnot.2).elim⟩
        | @invoked cell o hcell hregister =>
          have hcallback : cell.callback = c.cell.callback := Cell.callback_of_take? hcell
          rw [hregister]
          refine invoke_forward_forwards o
            (sends_invoke_forward o hsendings hitem nofun ?_) h.gone hnot
          exact hcallback ▸ honce hattaching

/-! ## Handling -/

/-- Turning a reservation into a handle uses no channel. -/
theorem Forwards.reshape (h : c.Forwards) (shape : Shape) : (c.reshape shape).Forwards := by
  unfold Consumer.reshape
  split
  next hhandle =>
    obtain ⟨hsendings, hchannel, hattaching, hcallback⟩ := h.idle (.inl hhandle)
    refine ⟨h.sends.mono rfl id rfl id id id, fun hreceiving => ?_, fun _ => ?_⟩
    · rw [show c.channel = {} from hchannel] at hreceiving
      cases hreceiving
    · exact ⟨hsendings, hchannel, hattaching, hcallback⟩
  next => exact h

/-- Beginning an operation sends nothing; the first poll of a stream prepares for the sending. -/
theorem Forwards.begin (h : c.Forwards) (u : Use) : (c.begin u).consumer.Forwards := by
  have subscribes : { c with handle := .subscription true, attaching := some .report }.Forwards :=
    Sends.forwards (h.sends.mono rfl id rfl id nofun id) nofun nofun
  have blocks (limit : Option Duration) : { c with handle := blockingWait limit }.Forwards := by
    cases limit <;> exact h.turn nofun nofun
  cases c.begins u with
  | launched hl hbegin =>
    rw [hbegin]
    generalize hhandle : c.handle = handle at hl
    cases hl with
    | spawn | get | mono | maybe => exact h.turn nofun nofun
    | block limit | monoBlock limit => exact blocks limit
    | subscribe => exact subscribes
    | stream =>
      -- The stream was idle, so nothing was sent yet and no callback is registered.
      obtain ⟨hsendings, hchannel, -, hcallback⟩ := h.idle (.inr hhandle)
      refine ⟨.before hsendings (by rw [hchannel]) ?_, fun hreceiving => ?_, fun hidle => ?_⟩
      · intro _
        rw [hcallback]
        nofun
      · rw [show c.channel = {} from hchannel] at hreceiving
        cases hreceiving
      · rcases hidle with hidle | hidle <;> cases hidle
  | continued hc hbegin =>
    rw [hbegin]
    generalize c.handle = handle at hc
    cases hc with
    | block limit => exact blocks limit
    | join | joinWithin | get => exact h.turn nofun nofun
    | subscribe => exact subscribes
  | answered _ hbegin =>
    rw [hbegin]
    exact h.turn nofun nofun
  | told _ hbegin =>
    have hturned : { c with handle := .subscription false }.Forwards := h.turn nofun nofun
    rw [hbegin]
    exact invoke_report_forwards hturned spent
  | ignored _ _ hbegin =>
    rw [hbegin]
    exact h

/-- Polling receives what was sent. -/
theorem Forwards.poll (h : c.Forwards) (w : Waker) : (c.poll w).1.Forwards := by
  cases c.polls w with
  | pending _ hcell hpoll | future _ hcell hpoll =>
    rw [hpoll]
    exact h.withCell (Cell.callback_of_poll hcell)
  | mono _ hcell hpoll | maybe _ hcell hpoll =>
    rw [hpoll]
    exact (h.withCell (Cell.callback_of_poll hcell)).turn nofun nofun
  | stream hhandle hchannel hpoll =>
    rw [hpoll]
    obtain ⟨hsending, hreceiving, hitem⟩ := Channel.receive_leaves hchannel
    refine ⟨h.sends.mono rfl hitem hsending hreceiving.trans id id, fun hgone => ?_,
      fun hidle => ?_⟩
    · exact h.gone (hreceiving.symm.trans hgone)
    · rcases hidle with hidle | hidle <;> cases hhandle.symm.trans hidle
  | done _ hpoll | ignored hpoll =>
    rw [hpoll]
    exact h

/-- A blocking operation does not read from the channel. -/
theorem Forwards.fetch (h : c.Forwards) : c.fetch.1.Forwards := by
  cases c.fetches with
  | fetched _ hcell hfetch =>
    rw [hfetch]
    exact (h.withCell (Cell.callback_of_take? hcell)).turn nofun nofun
  | pending _ _ hfetch | ignored _ hfetch =>
    rw [hfetch]
    exact h

/-- A blocking operation whose time is up does not read from the channel. -/
theorem Forwards.expire (h : c.Forwards) : c.expire.1.Forwards := by
  cases c.expires with
  | delivered _ hcell hexpire =>
    rw [hexpire]
    exact (h.withCell (Cell.callback_of_take? hcell)).turn nofun nofun
  | handedBack _ _ hexpire | givenUp _ _ hexpire =>
    rw [hexpire]
    exact h.turn nofun nofun
  | unbounded _ _ _ hexpire =>
    rw [hexpire]
    exact h

/-- Whatever is done with the handle, the channel is sent through once at most. -/
theorem Forwards.handling (h : c.Forwards) (hc : c.Handling c') : c'.Forwards := by
  cases hc with
  | reshape shape => exact h.reshape shape
  | begin u => exact h.begin u
  | wait => exact h.turn nofun nofun
  | poll w => exact h.poll w
  | fetch => exact h.fetch
  | expire => exact h.expire
  | complete =>
    unfold Consumer.complete
    split
    · have hgone : { c with handle := .gone }.Forwards := h.turn nofun nofun
      exact hgone.register_report ⟨nofun, nofun⟩
    · exact h
  | drop =>
    unfold Consumer.drop
    split
    · exact Sends.forwards (h.sends.mono rfl (fun _ => rfl) rfl (fun _ => rfl) id id) nofun nofun
    · exact h.turn nofun nofun

end Consumer

/-! ## Runs -/

namespace System

/-- In every run, the channel of a consumer is that of a one-item stream. -/
theorem forwards_run {actions : List (Action V)} {r : ReservationId} {x : Reservation V}
    (hx : (run {} actions).reservations[r]? = some x) : x.consumer.Forwards := by
  refine forall_run (P := fun x => x.consumer.Forwards) (fun w a x hnew => ?_)
    (fun w r a x x' hchange h => ?_) hx
  · -- What a computation makes is what a caller would have by making it and using it.
    have hmade : ({} : Consumer V).Forwards :=
      ⟨.before rfl rfl nofun, nofun, fun _ => ⟨rfl, rfl, rfl, rfl⟩⟩
    cases hnew with
    | reserve => exact hmade
    | @await p y access =>
      cases access with
      | spawn | block => exact hmade.begin _
      | mono | maybe | stream | next | monoBlock | get => exact (hmade.reshape _).begin _
      | join => exact (hmade.begin _).begin _
  · cases hchange with
    | handle hc => exact h.handling hc
    | attach => exact h.attach
    | refuse | finish | drop => exact h.publish _
    | lose => exact h.publish _
    | _ => exact h

end System

end Deferral
