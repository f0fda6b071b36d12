import Deferral.Consumer

/-!
# What is done with a consumer

A caller can do many things with the consuming side of a reservation, but to the cell they all do
the same: they leave what it holds, or take the outcome out of it. What each of the operations comes
to is said once, case by case, and whatever else is shown of an operation goes through these cases.

Main statements:
* `begins`, `polls`, `fetches`, `expires`, `registers`: what an operation comes to.
* `Handling.spends`: no handling of a consumer puts an outcome into its cell.
* `slot_publish`: publishing does.
-/

namespace Deferral

variable {V A : Type}

/-- The slot `t` is left over from `s` by taking out the outcome, or by leaving it alone. -/
inductive Slot.Spends : Slot A → Slot A → Prop
  /-- The slot is left alone. -/
  | refl (s : Slot A) : Spends s s
  /-- The outcome is taken. -/
  | take (a : A) : Spends (.ready a) .taken

namespace Slot.Spends

variable {s t : Slot A}

/-- Taking the outcome does not undo its publication. -/
theorem isDone_eq (h : s.Spends t) : t.isDone = s.isDone := by
  cases h <;> rfl

/-- What is there was there before. -/
theorem eq_ready {a : A} (h : s.Spends t) (ht : t = .ready a) : s = .ready a := by
  cases h with
  | refl => exact ht
  | take => cases ht

end Slot.Spends

namespace Cell

variable {W : Type}

variable {spent a : A} {a? : Option A} {c c' : Cell W A}

/-- The outcome is taken out, or the cell is left alone. -/
theorem spends_of_take? (h : c.take? spent = (c', a?)) : c.slot.Spends c'.slot := by
  unfold take? at h
  split at h
  next =>
    cases h
    exact .refl _
  next a hslot =>
    cases h
    rw [hslot]
    exact .take a
  next =>
    cases h
    exact .refl _

theorem spends_of_poll [Wakes W] {w : W} (h : c.poll spent w = (c', a?)) :
    c.slot.Spends c'.slot := by
  unfold poll at h
  split at h
  · cases h
    exact .refl _
  · exact spends_of_take? h

/-- An outcome is fetched only if it is there. -/
theorem isDone_of_take? (h : c.take? spent = (c', some a)) : c.isDone = true := by
  unfold take? at h
  unfold isDone
  split at h
  next => cases h
  next hslot => rw [hslot]; rfl
  next hslot => rw [hslot]; rfl

/-- A poll of a cell is answered only if the outcome is there. -/
theorem isDone_of_poll [Wakes W] {w : W} (h : c.poll spent w = (c', some a)) : c.isDone = true := by
  unfold poll at h
  split at h
  · cases h
  · exact isDone_of_take? h

/-- Taking the outcome from a cell registers no callback. -/
theorem callback_of_take? (h : c.take? spent = (c', a?)) : c'.callback = c.callback := by
  unfold take? at h
  split at h <;> cases h <;> rfl

/-- Polling a cell registers no callback. -/
theorem callback_of_poll [Wakes W] {w : W} (h : c.poll spent w = (c', a?)) :
    c'.callback = c.callback := by
  unfold poll at h
  split at h
  · cases h
    rfl
  · exact callback_of_take? h

end Cell

/-- Something is received only if it is there, or nothing can come any more. -/
theorem Channel.isReady_of_receive {c c' : Channel A} {w : Waker} {o : Option A}
    (h : c.receive w = (c', some o)) : c.isReady = true := by
  unfold receive at h
  unfold isReady
  split at h
  next hitem => simp [hitem]
  next =>
    split at h
    next => cases h
    next hsending => simp [hsending]

/-- What is to be received after a look at the channel was there before it. -/
theorem Channel.isReady_of_isReady_receive {c c' : Channel A} {w : Waker} {o? : Option (Option A)}
    (h : c.receive w = (c', o?)) (hready : c'.isReady = true) : c.isReady = true := by
  unfold receive at h
  split at h
  next hitem => simp [isReady, hitem]
  next => split at h <;> cases h <;> exact hready

/-- What is left to be received after hanging up is that nothing more is sent. -/
theorem Channel.isReady_of_isReady_hangUp {c : Channel A} (h : c.hangUp.isReady = true) :
    c.isReady = true := by
  have hsending : c.sending = false := by simpa [hangUp, isReady] using h
  simp [isReady, hsending]

namespace Consumer

/-! ## What an operation comes to -/

/-- The operations that launch the computation: of which handle, what the handle is then, and which
callback is to be registered. -/
inductive Launches : Use → Handle → Handle → Option Callback → Prop
  | spawn : Launches .spawn .reservation .future none
  | block (limit : Option Duration) :
      Launches (.block limit) .reservation (blockingWait limit) none
  | monoBlock (limit : Option Duration) :
      Launches (.block limit) (.mono .idle) (blockingWait limit) none
  | get : Launches .get (.maybe .idle) (.waiting .value) none
  | subscribe : Launches .subscribe (.mono .idle) (.subscription true) (some .report)
  | mono : Launches .poll (.mono .idle) (.mono .running) none
  | maybe : Launches .poll (.maybe .idle) (.maybe .running) none
  | stream : Launches .poll (.stream .idle) (.stream .running) (some .forward)

/-- The operations that go on with a computation that was launched: with which handle, what the
handle is then, and which callback is to be registered. -/
inductive Continues : Use → Handle → Handle → Option Callback → Prop
  | block (limit : Option Duration) :
      Continues (.block limit) (.mono .running) (blockingWait limit) none
  | join : Continues (.join none) .future (.waiting .outcome) none
  | joinWithin (limit : Duration) :
      Continues (.join (some limit)) .future (.waiting (.joining limit)) none
  | get : Continues .get (.maybe .running) (.waiting .value) none
  | subscribe : Continues .subscribe (.mono .running) (.subscription true) (some .report)

/-- What it comes to that an operation is begun. -/
inductive Begins (u : Use) (c : Consumer V) : Prop
  /-- It launches the computation. -/
  | launched {h : Handle} {callback? : Option Callback}
      (hlaunches : Launches u c.handle h callback?)
      (hbegin : c.begin u =
        { consumer := { c with handle := h, attaching := callback?.or c.attaching }, launch := true })
  /-- It goes on with the computation. -/
  | continued {h : Handle} {callback? : Option Callback}
      (hcontinues : Continues u c.handle h callback?)
      (hbegin : c.begin u =
        { consumer := { c with handle := h, attaching := callback?.or c.attaching } })
  /-- It is answered by a handle that has yielded. -/
  | answered {d : Delivery V} (hhandle : c.handle = .mono .done ∨ c.handle = .maybe .done)
      (hbegin : c.begin u = { consumer := { c with handle := .gone }, answer := some d })
  /-- The callback that a handle is given which has yielded is invoked. -/
  | told (hhandle : c.handle = .mono .done)
      (hbegin : c.begin u =
        { consumer := invoke .report spent { c with handle := .subscription false } })
  /-- It is not offered. -/
  | ignored (hlaunches : ∀ h callback?, ¬Launches u c.handle h callback?)
      (hcontinues : ∀ h callback?, ¬Continues u c.handle h callback?)
      (hbegin : c.begin u = { consumer := c })

theorem begins (u : Use) (c : Consumer V) : c.Begins u := by
  have hbegin : c.begin u = c.begin u := rfl
  conv at hbegin => rhs; unfold begin
  split at hbegin
  next hhandle => exact .launched (by rw [hhandle]; exact .spawn) hbegin
  next limit hhandle => exact .launched (by rw [hhandle]; exact .block limit) hbegin
  next limit hhandle => exact .launched (by rw [hhandle]; exact .monoBlock limit) hbegin
  next limit hhandle => exact .continued (by rw [hhandle]; exact .block limit) hbegin
  next hhandle => exact .answered (.inl hhandle) hbegin
  next hhandle => exact .continued (by rw [hhandle]; exact .join) hbegin
  next limit hhandle => exact .continued (by rw [hhandle]; exact .joinWithin limit) hbegin
  next hhandle => exact .launched (by rw [hhandle]; exact .get) hbegin
  next hhandle => exact .continued (by rw [hhandle]; exact .get) hbegin
  next hhandle => exact .answered (.inr hhandle) hbegin
  next hhandle => exact .launched (by rw [hhandle]; exact .subscribe) hbegin
  next hhandle => exact .continued (by rw [hhandle]; exact .subscribe) hbegin
  next hhandle => exact .told hhandle hbegin
  next hhandle => exact .launched (by rw [hhandle]; exact .mono) hbegin
  next hhandle => exact .launched (by rw [hhandle]; exact .maybe) hbegin
  next hhandle => exact .launched (by rw [hhandle]; exact .stream) hbegin
  next =>
    -- No pattern that is left offers anything.
    refine .ignored (fun h callback? hl => ?_) (fun h callback? hc => ?_) hbegin
    · generalize hhandle : c.handle = handle at hl
      cases hl <;> simp_all
    · generalize hhandle : c.handle = handle at hc
      cases hc <;> simp_all

/-- What a poll of the consumer `c` comes to. -/
inductive Polls (w : Waker) (c : Consumer V) : Prop
  /-- It looks for the outcome in the cell, where it is not. -/
  | pending {cell : Cell Waker (Outcome V)}
      (hhandle : c.handle = .future ∨ c.handle = .mono .running ∨ c.handle = .maybe .running)
      (hcell : c.cell.poll spent w = (cell, none)) (hpoll : c.poll w = ({ c with cell }, none))
  /-- A future takes the outcome. -/
  | future {cell : Cell Waker (Outcome V)} {o : Outcome V} (hhandle : c.handle = .future)
      (hcell : c.cell.poll spent w = (cell, some o))
      (hpoll : c.poll w = ({ c with cell }, some (.outcome o)))
  /-- A mono takes it, and is done. -/
  | mono {cell : Cell Waker (Outcome V)} {o : Outcome V} (hhandle : c.handle = .mono .running)
      (hcell : c.cell.poll spent w = (cell, some o))
      (hpoll : c.poll w = ({ c with cell, handle := .mono .done }, some (.item (some o))))
  /-- So does a maybe. -/
  | maybe {cell : Cell Waker (Outcome V)} {o : Outcome V} (hhandle : c.handle = .maybe .running)
      (hcell : c.cell.poll spent w = (cell, some o))
      (hpoll : c.poll w = ({ c with cell, handle := .maybe .done }, some (.optional (optional o))))
  /-- A stream looks into the channel. -/
  | stream {channel : Channel (Outcome V)} {o? : Option (Option (Outcome V))}
      (hhandle : c.handle = .stream .running) (hchannel : c.channel.receive w = (channel, o?))
      (hpoll : c.poll w = ({ c with channel }, o?.map .item))
  /-- A mono or a maybe that is done says so. -/
  | done {d : Delivery V} (hhandle : c.handle = .mono .done ∨ c.handle = .maybe .done)
      (hpoll : c.poll w = (c, some d))
  /-- Any other handle is left alone. -/
  | ignored (hpoll : c.poll w = (c, none))

theorem polls (w : Waker) (c : Consumer V) : c.Polls w := by
  -- Three kinds of handles look into the cell, and the stream into the channel.
  rcases hcell : c.cell.poll spent w with ⟨cell, o?⟩
  rcases hhandle : c.handle with _ | _ | stage | stage | stage | purpose | live | _
  case future =>
    cases o? with
    | none => exact .pending (.inl hhandle) hcell (by simp [poll, hhandle, hcell])
    | some o => exact .future hhandle hcell (by simp [poll, hhandle, hcell])
  case mono =>
    cases stage with
    | idle => exact .ignored (by simp [poll, hhandle])
    | running =>
      cases o? with
      | none => exact .pending (.inr (.inl hhandle)) hcell (by simp [poll, hhandle, hcell])
      | some o => exact .mono hhandle hcell (by simp [poll, hhandle, hcell])
    | done =>
      have hpoll : c.poll w = (c, some (.item none)) := by simp only [poll, hhandle]
      exact .done (.inl hhandle) hpoll
  case maybe =>
    cases stage with
    | idle => exact .ignored (by simp [poll, hhandle])
    | running =>
      cases o? with
      | none => exact .pending (.inr (.inr hhandle)) hcell (by simp [poll, hhandle, hcell])
      | some o => exact .maybe hhandle hcell (by simp [poll, hhandle, hcell])
    | done =>
      have hpoll : c.poll w = (c, some (.optional (.ok none))) := by simp only [poll, hhandle]
      exact .done (.inr hhandle) hpoll
  case stream =>
    cases stage with
    | running =>
      rcases hchannel : c.channel.receive w with ⟨channel, o?⟩
      exact .stream hhandle hchannel (by simp only [poll, hhandle, hchannel])
    | idle | done => exact .ignored (by simp [poll, hhandle])
  all_goals exact .ignored (by simp [poll, hhandle])

/-- Only a blocking operation looks for the outcome. -/
theorem fetch_of_not_waiting {c : Consumer V} (h : ∀ purpose, c.handle ≠ .waiting purpose) :
    c.fetch = (c, none) := by
  unfold fetch
  split
  next purpose hhandle => exact absurd hhandle (h purpose)
  next => rfl

/-- Only a blocking operation has its time. -/
theorem expire_of_not_waiting {c : Consumer V} (h : ∀ purpose, c.handle ≠ .waiting purpose) :
    c.expire = (c, .unbounded) := by
  unfold expire
  rw [fetch_of_not_waiting h]
  dsimp only
  split
  next hhandle => exact absurd hhandle (h _)
  next hhandle => exact absurd hhandle (h _)
  next => rfl

/-- What a look of a blocking operation comes to. -/
inductive Fetches (c : Consumer V) : Prop
  /-- The operation takes the outcome, and is over. -/
  | fetched {purpose : Waiting} {cell : Cell Waker (Outcome V)} {o : Outcome V}
      (hhandle : c.handle = .waiting purpose) (hcell : c.cell.take? spent = (cell, some o))
      (hfetch : c.fetch = ({ c with cell, handle := .gone }, some (Waiting.deliver purpose o)))
  /-- The outcome is not there. -/
  | pending {purpose : Waiting} (hhandle : c.handle = .waiting purpose)
      (hpending : c.cell.slot = .pending) (hfetch : c.fetch = (c, none))
  /-- There is no such operation. -/
  | ignored (hhandle : ∀ purpose, c.handle ≠ .waiting purpose) (hfetch : c.fetch = (c, none))

theorem fetches (c : Consumer V) : c.Fetches := by
  by_cases hwaiting : ∃ purpose, c.handle = .waiting purpose
  · obtain ⟨purpose, hhandle⟩ := hwaiting
    cases hslot : c.cell.slot with
    | pending => exact .pending hhandle hslot (by simp [fetch, hhandle, Cell.take?, hslot])
    | ready o =>
      have hcell : c.cell.take? spent = ({ c.cell with slot := .taken }, some o) := by
        rw [Cell.take?, hslot]
      exact .fetched hhandle hcell (by simp [fetch, hhandle, hcell])
    | taken =>
      have hcell : c.cell.take? spent = (c.cell, some spent) := by rw [Cell.take?, hslot]
      exact .fetched hhandle hcell (by simp [fetch, hhandle, hcell])
  · have hhandle : ∀ purpose, c.handle ≠ .waiting purpose := not_exists.mp hwaiting
    exact .ignored hhandle (fetch_of_not_waiting hhandle)

/-- What becomes of a wait whose time is up. -/
inductive Expires (c : Consumer V) : Prop
  /-- It takes the outcome in the end. -/
  | delivered {purpose : Waiting} {cell : Cell Waker (Outcome V)} {o : Outcome V}
      (hhandle : c.handle = .waiting purpose) (hcell : c.cell.take? spent = (cell, some o))
      (hexpire : c.expire =
        ({ c with cell, handle := .gone }, .delivered (Waiting.deliver purpose o)))
  /-- It hands the future back. -/
  | handedBack {limit : Duration} (hhandle : c.handle = .waiting (.joining limit))
      (hpending : c.cell.slot = .pending)
      (hexpire : c.expire = ({ c with handle := .future }, .handedBack))
  /-- It gives the computation up. -/
  | givenUp {limit : Duration} (hhandle : c.handle = .waiting (.blocking limit))
      (hpending : c.cell.slot = .pending)
      (hexpire : c.expire = ({ c with handle := .gone }, .givenUp limit))
  /-- It has no bound, or there is no wait. -/
  | unbounded (hjoining : ∀ limit, c.handle ≠ .waiting (.joining limit))
      (hblocking : ∀ limit, c.handle ≠ .waiting (.blocking limit))
      (hpending : ∀ purpose, c.handle = .waiting purpose → c.cell.slot = .pending)
      (hexpire : c.expire = (c, .unbounded))

theorem expires (c : Consumer V) : c.Expires := by
  cases c.fetches with
  | fetched hhandle hcell hfetch => exact .delivered hhandle hcell (by simp [expire, hfetch])
  | @pending purpose hhandle hpending hfetch =>
    cases purpose with
    | joining limit => exact .handedBack hhandle hpending (by simp [expire, hfetch, hhandle])
    | blocking limit => exact .givenUp hhandle hpending (by simp [expire, hfetch, hhandle])
    | outcome | value =>
      exact .unbounded (by simp [hhandle]) (by simp [hhandle]) (fun _ _ => hpending)
        (by simp [expire, hfetch, hhandle])
  | ignored hhandle =>
    exact .unbounded (fun _ => hhandle _) (fun _ => hhandle _)
      (fun purpose hwaiting => absurd hwaiting (hhandle purpose)) (expire_of_not_waiting hhandle)

/-- What it comes to that a callback is registered. -/
inductive Registers (callback : Callback) (c : Consumer V) : Prop
  /-- It waits for the outcome. -/
  | registered (hpending : c.cell.slot = .pending)
      (hregister : register callback c = { c with cell := { c.cell with callback := some callback } })
  /-- It is invoked with the outcome, which is taken. -/
  | invoked {cell : Cell Waker (Outcome V)} {o : Outcome V}
      (hcell : c.cell.take? spent = (cell, some o))
      (hregister : register callback c = invoke callback o { c with cell })

theorem registers (callback : Callback) (c : Consumer V) : c.Registers callback := by
  cases hslot : c.cell.slot with
  | pending => exact .registered hslot (by rw [register, Cell.onComplete_of_pending hslot])
  | ready o =>
    have hcell : c.cell.take? spent = ({ c.cell with slot := .taken }, some o) := by
      rw [Cell.take?, hslot]
    have hdone : c.cell.isDone = true := Cell.isDone_of_take? hcell
    exact .invoked hcell (by rw [register, Cell.onComplete_of_isDone hdone, hcell])
  | taken =>
    have hcell : c.cell.take? spent = (c.cell, some spent) := by rw [Cell.take?, hslot]
    have hdone : c.cell.isDone = true := Cell.isDone_of_take? hcell
    exact .invoked hcell (by rw [register, Cell.onComplete_of_isDone hdone, hcell])

/-! ## Publishing -/

@[simp]
theorem cell_invoke (callback : Callback) (o : Outcome V) (c : Consumer V) :
    (invoke callback o c).cell = c.cell := by
  cases callback <;> rfl

/-- The outcome published is in the cell, unless a callback has received it. -/
theorem slot_publish (o : Outcome V) (c : Consumer V) :
    (c.publish o).cell.slot = .ready o ∨ (c.publish o).cell.slot = .taken := by
  unfold publish
  cases hcallback : c.cell.callback with
  | none =>
    rw [Cell.publish_of_no_callback hcallback]
    exact .inl rfl
  | some callback =>
    rw [Cell.publish_of_callback hcallback]
    exact .inr (by simp)

/-- Publishing an outcome makes the cell done. -/
theorem isDone_publish (o : Outcome V) (c : Consumer V) : (c.publish o).cell.isDone = true := by
  unfold Cell.isDone
  cases slot_publish o c with
  | inl hready => rw [hready]; rfl
  | inr htaken => rw [htaken]; rfl

/-! ## Handling -/

/-- What a caller does with its end of a reservation. None of it publishes an outcome. -/
inductive Handling : Consumer V → Consumer V → Prop
  /-- It turns the reservation into a handle. -/
  | reshape {c : Consumer V} (shape : Shape) : Handling c (c.reshape shape)
  /-- It begins an operation. -/
  | begin {c : Consumer V} (use : Use) : Handling c (c.begin use).consumer
  /-- It begins to wait for a computation that it runs directly on the pool. -/
  | wait {c : Consumer V} : Handling c { c with handle := .waiting .outcome }
  /-- It polls. -/
  | poll {c : Consumer V} (w : Waker) : Handling c (c.poll w).1
  /-- It looks whether a blocking operation can be answered. -/
  | fetch {c : Consumer V} : Handling c c.fetch.1
  /-- Its time is up. -/
  | expire {c : Consumer V} : Handling c c.expire.1
  /-- It gives a callback. -/
  | complete {c : Consumer V} : Handling c c.complete
  /-- It drops the handle. -/
  | drop {c : Consumer V} : Handling c c.drop

theorem register_spends (callback : Callback) (c : Consumer V) :
    c.cell.slot.Spends (register callback c).cell.slot := by
  cases c.registers callback with
  | registered _ hregister =>
    rw [hregister]
    exact .refl _
  | invoked hcell hregister =>
    rw [hregister, cell_invoke]
    exact Cell.spends_of_take? hcell

theorem poll_spends (w : Waker) (c : Consumer V) : c.cell.slot.Spends (c.poll w).1.cell.slot := by
  cases c.polls w with
  | pending _ hcell hpoll | future _ hcell hpoll | mono _ hcell hpoll | maybe _ hcell hpoll =>
    rw [hpoll]
    exact Cell.spends_of_poll hcell
  | stream _ _ hpoll | done _ hpoll | ignored hpoll =>
    rw [hpoll]
    exact .refl _

theorem fetch_spends (c : Consumer V) : c.cell.slot.Spends c.fetch.1.cell.slot := by
  cases c.fetches with
  | fetched _ hcell hfetch =>
    rw [hfetch]
    exact Cell.spends_of_take? hcell
  | pending _ _ hfetch | ignored _ hfetch =>
    rw [hfetch]
    exact .refl _

theorem expire_spends (c : Consumer V) : c.cell.slot.Spends c.expire.1.cell.slot := by
  cases c.expires with
  | delivered _ hcell hexpire =>
    rw [hexpire]
    exact Cell.spends_of_take? hcell
  | handedBack _ _ hexpire | givenUp _ _ hexpire | unbounded _ _ _ hexpire =>
    rw [hexpire]
    exact .refl _

theorem begin_spends (use : Use) (c : Consumer V) :
    c.cell.slot.Spends (c.begin use).consumer.cell.slot := by
  cases c.begins use with
  | launched _ hbegin | continued _ hbegin | answered _ hbegin | told _ hbegin
  | ignored _ _ hbegin =>
    rw [hbegin]
    exact .refl _

/-- Registering the callback that waited for the launch puts no outcome into the cell. -/
theorem attach_spends (c : Consumer V) : c.cell.slot.Spends c.attach.cell.slot := by
  unfold attach
  split
  · exact register_spends _ { c with attaching := none }
  · exact .refl _

/-- No handling of a consumer puts an outcome into its cell. -/
theorem Handling.spends {c c' : Consumer V} (h : c.Handling c') :
    c.cell.slot.Spends c'.cell.slot := by
  cases h with
  | reshape =>
    unfold Consumer.reshape
    split <;> exact .refl _
  | begin use => exact begin_spends use c
  | wait => exact .refl _
  | poll w => exact poll_spends w c
  | fetch => exact fetch_spends c
  | expire => exact expire_spends c
  | complete =>
    unfold Consumer.complete
    split
    · exact register_spends .report { c with handle := .gone }
    · exact .refl _
  | drop =>
    unfold Consumer.drop
    split <;> exact .refl _

/-! ## Channels -/

/-- Looking for the outcome in the cell leaves the channel alone. -/
theorem channel_fetch (c : Consumer V) : c.fetch.1.channel = c.channel := by
  cases c.fetches with
  | fetched _ _ hfetch | pending _ _ hfetch | ignored _ hfetch => rw [hfetch]

/-- A wait whose time is up leaves the channel alone. -/
theorem channel_expire (c : Consumer V) : c.expire.1.channel = c.channel := by
  cases c.expires with
  | delivered _ _ hexpire | handedBack _ _ hexpire | givenUp _ _ hexpire
  | unbounded _ _ _ hexpire =>
    rw [hexpire]

/-- Nothing is sent into the channel by what a caller does. -/
theorem Handling.isReady_channel {c c' : Consumer V} (h : c.Handling c')
    (hready : c'.channel.isReady = true) : c.channel.isReady = true := by
  cases h with
  | reshape =>
    unfold Consumer.reshape at hready
    split at hready <;> exact hready
  | begin u =>
    cases c.begins u with
    | launched _ hbegin | continued _ hbegin | answered _ hbegin | told _ hbegin
    | ignored _ _ hbegin =>
      rw [hbegin] at hready
      exact hready
  | wait => exact hready
  | poll w =>
    cases c.polls w with
    | stream _ hchannel hpoll =>
      rw [hpoll] at hready
      exact Channel.isReady_of_isReady_receive hchannel hready
    | pending _ _ hpoll | future _ _ hpoll | mono _ _ hpoll | maybe _ _ hpoll | done _ hpoll
    | ignored hpoll =>
      rw [hpoll] at hready
      exact hready
  | fetch => rwa [channel_fetch] at hready
  | expire => rwa [channel_expire] at hready
  | complete =>
    unfold Consumer.complete Consumer.register at hready
    split at hready
    next => split at hready <;> exact hready
    next => exact hready
  | drop =>
    unfold Consumer.drop at hready
    split at hready
    next => exact Channel.isReady_of_isReady_hangUp hready
    next => exact hready

/-- A callback that sends into the channel is called only once the outcome is there. -/
theorem isReady_channel_attach {c : Consumer V} (hready : c.attach.channel.isReady = true) :
    c.channel.isReady = true ∨ c.cell.isDone = true := by
  unfold attach at hready
  split at hready
  next callback _ =>
    cases ({ c with attaching := none } : Consumer V).registers callback with
    | registered _ hregister =>
      rw [hregister] at hready
      exact .inl hready
    | invoked hcell => exact .inr (Cell.isDone_of_take? hcell)
  next => exact .inl hready

/-! ## Looking -/

/-- Look for what a handle delivers: a blocking operation looks into the cell, any other handle is
polled with the given waker. -/
def look (w : Waker) (c : Consumer V) : Consumer V × Option (Delivery V) :=
  match c.handle with
  | .waiting _ => c.fetch
  | _ => c.poll w

/-- Looking for what a handle delivers is something that its owner does. -/
theorem Handling.look (w : Waker) (c : Consumer V) : c.Handling (c.look w).1 := by
  unfold Consumer.look
  split
  · exact .fetch
  · exact .poll w

/-- A poll that is not answered leaves the handle alone. -/
theorem handle_of_poll_eq_none {c : Consumer V} {w : Waker} (h : (c.poll w).2 = none) :
    (c.poll w).1.handle = c.handle := by
  cases c.polls w with
  | pending _ _ hpoll | future _ _ hpoll | stream _ _ hpoll | done _ hpoll | ignored hpoll =>
    rw [hpoll]
  | mono _ _ hpoll | maybe _ _ hpoll =>
    rw [hpoll] at h
    cases h

/-- A blocking operation that is not answered goes on. -/
theorem fetch_eq_self {c : Consumer V} (h : c.fetch.2 = none) : c.fetch.1 = c := by
  cases c.fetches with
  | fetched _ _ hfetch =>
    rw [hfetch] at h
    cases h
  | pending _ _ hfetch | ignored _ hfetch => rw [hfetch]

/-- A look that finds nothing leaves the handle alone. -/
theorem handle_of_look_eq_none {c : Consumer V} {w : Waker} (h : (c.look w).2 = none) :
    (c.look w).1.handle = c.handle := by
  unfold look at h ⊢
  split at h
  · rw [fetch_eq_self h]
  · exact handle_of_poll_eq_none h

/-! ## Receiving -/

/-- A poll is answered only if the outcome, or what stands for it, is there. -/
theorem isReady_of_poll {c : Consumer V} {w : Waker} {d : Delivery V}
    (h : (c.poll w).2 = some d) : c.isReady = true := by
  cases c.polls w with
  | future hhandle hcell | mono hhandle hcell | maybe hhandle hcell =>
    have hdone : c.cell.isDone = true := Cell.isDone_of_poll hcell
    rw [isReady, hhandle]
    exact hdone
  | stream hhandle hchannel hpoll =>
    rw [hpoll] at h
    obtain ⟨o, rfl, -⟩ := Option.map_eq_some_iff.mp h
    rw [isReady, hhandle]
    exact Channel.isReady_of_receive hchannel
  | done hhandle => rcases hhandle with hhandle | hhandle <;> rw [isReady, hhandle]
  | pending _ _ hpoll | ignored hpoll =>
    rw [hpoll] at h
    cases h

/-- A blocking operation is answered only if the outcome is there. -/
theorem isReady_of_fetch {c : Consumer V} {d : Delivery V} (h : c.fetch.2 = some d) :
    c.isReady = true := by
  cases c.fetches with
  | fetched hhandle hcell =>
    rw [isReady, hhandle]
    exact Cell.isDone_of_take? hcell
  | pending _ _ hfetch | ignored _ hfetch =>
    rw [hfetch] at h
    cases h

/-- Something is found only if it is there. -/
theorem isReady_of_look {c : Consumer V} {w : Waker} {d : Delivery V}
    (h : (c.look w).2 = some d) : c.isReady = true := by
  unfold look at h
  split at h
  · exact isReady_of_fetch h
  · exact isReady_of_poll h

/-! ## Giving up -/

/-- A poll never leads to a handle that gives the computation up. -/
theorem givesUp_of_givesUp_poll {c : Consumer V} {w : Waker}
    (h : givesUp (c.poll w).1.handle = true) : givesUp c.handle = true := by
  cases c.polls w with
  | mono hhandle | maybe hhandle => rw [hhandle]; rfl
  | pending _ _ hpoll | future _ _ hpoll | stream _ _ hpoll | done _ hpoll | ignored hpoll =>
    rw [hpoll] at h
    exact h

/-- A blocking operation never leads to a handle that gives the computation up. -/
theorem givesUp_of_givesUp_fetch {c : Consumer V}
    (h : givesUp c.fetch.1.handle = true) : givesUp c.handle = true := by
  cases c.fetches with
  | fetched _ _ hfetch =>
    rw [hfetch] at h
    cases h
  | pending _ _ hfetch | ignored _ hfetch =>
    rw [hfetch] at h
    exact h

/-- A look never leads to a handle that gives the computation up. -/
theorem givesUp_of_givesUp_look {c : Consumer V} {w : Waker}
    (h : givesUp (c.look w).1.handle = true) : givesUp c.handle = true := by
  unfold look at h
  split at h
  · exact givesUp_of_givesUp_fetch h
  · exact givesUp_of_givesUp_poll h

/-! ## Callbacks that wait for the launch -/

/-- Publishing an outcome leaves a callback that waits for the launch alone. -/
theorem attaching_publish (o : Outcome V) (c : Consumer V) :
    (c.publish o).attaching = c.attaching := by
  unfold publish
  split
  next callback _ _ => cases callback <;> rfl
  next => rfl

/-- A callback is registered once. -/
theorem attaching_attach (c : Consumer V) : c.attach.attaching = none := by
  unfold attach
  split
  next callback _ =>
    unfold register
    split
    next o _ => cases callback <;> rfl
    next => rfl
  next h => exact h

/-- A poll leaves a callback that waits for the launch alone. -/
theorem attaching_poll (w : Waker) (c : Consumer V) : (c.poll w).1.attaching = c.attaching := by
  cases c.polls w with
  | pending _ _ hpoll | future _ _ hpoll | mono _ _ hpoll | maybe _ _ hpoll | stream _ _ hpoll
  | done _ hpoll | ignored hpoll => rw [hpoll]

/-- A blocking operation leaves a callback that waits for the launch alone. -/
theorem attaching_fetch (c : Consumer V) : c.fetch.1.attaching = c.attaching := by
  cases c.fetches with
  | fetched _ _ hfetch | pending _ _ hfetch | ignored _ hfetch => rw [hfetch]

/-- Looking leaves a callback that waits for the launch alone. -/
theorem attaching_look (w : Waker) (c : Consumer V) : (c.look w).1.attaching = c.attaching := by
  unfold look
  split
  · exact attaching_fetch c
  · exact attaching_poll w c

/-- Dropping the handle leaves a callback that waits for the launch alone. -/
theorem attaching_drop (c : Consumer V) : c.drop.attaching = c.attaching := by
  unfold drop
  split <;> rfl

end Consumer

/-- A handle that a computation makes has nothing in its cell yet. -/
@[simp]
theorem Access.slot_consumer (access : Access) :
    (access.consumer : Consumer V).cell.slot = .pending := by
  cases access <;> rfl

end Deferral
