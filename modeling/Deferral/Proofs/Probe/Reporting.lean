import Deferral.Proofs.Probe.Arguments
import Deferral.Proofs.Probe.Printed
import Deferral.Proofs.Probe.Trials

/-!
# What the probe reports

The probe makes one entry of each trial, prints the entries in one of two ways, and counts those
that are not in order. Nothing that a trial comes to keeps the probe from going on with the next
one. So the report is complete, and its exit status, its message and both ways of printing agree,
whatever the trials come to and however long they take.

Main statements:
* `delivers_wait`: what a way of consuming a reservation can deliver.
* `tells_ofTrial`: what the entry of a trial says.
* `exists_concludes`: how the entries, what is printed of them, the message and the
  exit status agree.
* `reporting_call`: what a call of the probe reports.
-/

namespace Deferral.Probe

open Deferral.System

variable {o : Options} {r : ReservationId} {shape : Shape} {actions : List (Action String)}
  {x : Reservation String} {l : List Argument} {arguments : List String}
  {bindings : List (String × ByteArray)}

/-! ## Deliveries -/

/-- What can be delivered to a caller that consumes a reservation in this way. -/
inductive Delivers : Shape → Delivery String → Prop
  /-- To block ends in an outcome. -/
  | block (e : Outcome String) : Delivers .block (.outcome e)
  /-- So does to join a future. -/
  | spawn (e : Outcome String) : Delivers .spawn (.outcome e)
  /-- So does a mono. -/
  | mono (e : Outcome String) : Delivers .mono (.outcome e)
  /-- A maybe takes cancellation for no value. -/
  | maybe (e : Outcome String) : Delivers .maybe (.optional (optional e))
  /-- A stream has an item or is at its end. -/
  | stream (e? : Option (Outcome String)) : Delivers .stream (.item e?)

/-- What a blocking wait is answered with belongs to its purpose. -/
theorem delivers_of_answer? {w : System String} {o? : Option (Outcome String)} {purpose : Waiting}
    {d : Delivery String} (htwin : Twin r w w) (hw : Awaits r (.waiting purpose) o? w)
    (hpurpose : purpose.limit? = none ∨ ∃ limit, purpose = .blocking limit)
    (hd : answer? (w.waitOut r id).2 = some d) : ∃ e, d = Consumer.Waiting.deliver purpose e := by
  rcases hdeadline : (w.waitLimit? r).bind fun d => d.deadline? w.clock with _ | t
  -- Without a deadline the wait goes on until all has come to rest.
  · obtain ⟨e?, he, -⟩ := exists_awaits_quiesce htwin hw hw
    rw [answer?_of_no_deadline hdeadline he] at hd
    obtain ⟨e, -, rfl⟩ := Option.map_eq_some_iff.mp hd
    exact ⟨e, rfl⟩
  -- Only a bounded wait has one, and it ends with an outcome, be it the time-out.
  · rcases hpurpose with hlimit | ⟨limit, rfl⟩
    · cases (no_deadline_of_awaits hw hlimit).symm.trans hdeadline
    · obtain ⟨e?, he, -⟩ := exists_awaits_inStep htwin (htwin.quiesce_quiesce (some t)) hw
      rw [answer?_of_deadline hdeadline he] at hd
      obtain rfl := Option.some.inj hd
      exact ⟨_, rfl⟩

/-- What a stream is answered with is an item. -/
theorem delivers_of_pollOut {w : System String} {o? : Option (Outcome String)} {d : Delivery String}
    (htwin : Twin r w w) (hw : Awaits r (.stream .running) o? w)
    (hd : (w.pollOut r id).2 = some d) :
    ∃ e, d = .item (some e) := by
  have hpolled {w : System String} {o? : Option (Outcome String)}
      (hw : Awaits r (.stream .running) o? w)
      (hd : w.pollAnswer r .thread = some d) : ∃ e, d = .item (some e) := by
    rw [hw.pollAnswer rfl .thread] at hd
    obtain ⟨e, -, rfl⟩ := Option.map_eq_some_iff.mp hd
    exact ⟨e, rfl⟩
  unfold pollOut at hd
  split at hd
  next d' hanswer => exact hpolled hw (hanswer.trans hd)
  next hpending =>
    -- The first poll leaves a waker behind, and the stream is polled again when all
    -- has come to rest.
    obtain rfl := Option.map_eq_none_iff.mp ((hw.pollAnswer rfl .thread).symm.trans hpending)
    obtain ⟨actions', rfl⟩ := htwin.exists_run
    have hw' := (hw.poll rfl .thread).2
    have hrun : ∃ actions, (run {} actions').act (.poll r .thread) = run {} actions :=
      ⟨actions' ++ [.poll r .thread], (run_concat ..).symm⟩
    obtain ⟨e?, he, -⟩ := exists_awaits_quiesce ⟨hrun, hrun, .refl r _, hw'.owned⟩ hw' hw'
    exact hpolled he hd

/-- What a way of consuming a reservation delivers is what it can deliver. -/
theorem delivers_wait (hx : (run {} actions).reservations[r]? = some x) (hreserved : Reserved r x)
    (o : Options) (shape : Shape) {d : Delivery String}
    (hd : (shape.wait r ((run {} actions).run (shape.actions o r))).2 = some d) :
    Delivers shape d := by
  obtain ⟨htwin, o?, hw⟩ := exists_awaits_actions hx hreserved o shape
  -- All but the stream end in a wait on the cell, which delivers what fits the handle.
  have hblocking {purpose : Waiting} (hshape : shape ≠ .stream)
      (hhandle : shape.handle o = .waiting purpose)
      (hpurpose : purpose.limit? = none ∨ ∃ limit, purpose = .blocking limit) :
      ∃ e, d = Consumer.Waiting.deliver purpose e := by
    rw [hhandle] at hw
    rw [wait_eq_answer? shape hshape] at hd
    exact delivers_of_answer? htwin.right hw hpurpose hd
  cases shape with
  | block =>
    obtain ⟨e, rfl⟩ := hblocking nofun rfl (.inl rfl)
    exact .block e
  | spawn =>
    obtain ⟨e, rfl⟩ := hblocking nofun rfl (.inl rfl)
    exact .spawn e
  | mono =>
    obtain ⟨e, rfl⟩ := hblocking nofun rfl (.inr ⟨_, rfl⟩)
    exact .mono e
  | maybe =>
    obtain ⟨e, rfl⟩ := hblocking nofun rfl (.inl rfl)
    exact .maybe e
  | stream =>
    obtain ⟨e, rfl⟩ := delivers_of_pollOut htwin.right hw hd
    exact .stream _

/-- Whatever a trial of the probe comes to can have been delivered. -/
theorem Comes.exists_delivers {result : Except Failure (Option String)} (h : Comes o shape result) :
    ∃ d, Delivers shape d ∧ result = extracted d := by
  cases h with
  | value =>
    cases shape with
    | block => exact ⟨_, .block (.ok o.value), rfl⟩
    | spawn => exact ⟨_, .spawn (.ok o.value), rfl⟩
    | mono => exact ⟨_, .mono (.ok o.value), rfl⟩
    | maybe => exact ⟨_, .maybe (.ok o.value), rfl⟩
    | stream => exact ⟨_, .stream (some (.ok o.value)), rfl⟩
  | timedOut => exact ⟨_, .mono (.error (.timedOut o.timeout)), rfl⟩

/-! ## Entries -/

/-- What an entry says of a delivery that was waited for so long. -/
structure Entry.Tells (o : Options) (shape : Shape) (d : Delivery String) (elapsed : Duration) (e : Entry) :
    Prop where
  /-- It names the way in which the computation was consumed. -/
  shape_eq : e.shape = shape
  /-- It has the time that passed. -/
  elapsed_eq : e.elapsed = elapsed
  /-- It has the value that came, if one came. -/
  value_iff : ∀ v, e.value = some v ↔ extracted d = .ok (some v)
  /-- It has the message of the failure, if there was one. -/
  error_iff : ∀ m, e.error = some m ↔ ∃ f : Failure, extracted d = .error f ∧ m = f.message
  /-- It does not have both. -/
  not_both : e.value = none ∨ e.error = none
  /-- It has neither exactly if a maybe was cancelled or a stream had ended. -/
  neither_iff : e.value = none ∧ e.error = none ↔
    shape = .maybe ∧ d = .optional (optional (.error .cancelled)) ∨ shape = .stream ∧ d = .item none
  /-- It is in order exactly if the value is the one that was to be echoed, and came
  after the delay. -/
  ok_iff : e.ok = true ↔ e.value = some o.value ∧ o.delay.nanoseconds < elapsed.nanoseconds

/-- There is neither a value nor a failure exactly if a maybe was cancelled or a
stream had ended. -/
theorem extracted_eq_ok_none_iff {d : Delivery String} (h : Delivers shape d) :
    extracted d = .ok none ↔
      shape = .maybe ∧ d = .optional (optional (.error .cancelled)) ∨
        shape = .stream ∧ d = .item none := by
  have hsome (e : Outcome String) : e.map some ≠ .ok none := by
    cases e <;> simp [Except.map]
  cases h with
  | block e | spawn e | mono e => simp [extracted, hsome]
  | maybe e => simp [extracted, optional]
  | stream e? =>
    cases e? with
    | none => simp [extracted]
    | some e => simp [extracted, hsome]

/-- The entry of a trial says what was delivered. -/
theorem tells_ofTrial {t : Trial} {d : Delivery String} (hd : Delivers t.shape d)
    (houtcome : t.outcome = extracted d) (elapsed : Duration) :
    (Entry.ofTrial o t elapsed).Tells o t.shape d elapsed := by
  have hneither := extracted_eq_ok_none_iff hd
  rw [Entry.ofTrial, houtcome]
  rcases hextracted : extracted d with f | v
  · rw [hextracted] at hneither
    exact {
      shape_eq := rfl
      elapsed_eq := rfl
      value_iff := by simp [hextracted]
      error_iff := by simp [hextracted, eq_comm]
      not_both := .inl rfl
      neither_iff := by simp [← hneither]
      ok_iff := by simp }
  · rw [hextracted] at hneither
    exact {
      shape_eq := rfl
      elapsed_eq := rfl
      value_iff := by simp [hextracted]
      error_iff := by simp [hextracted]
      not_both := .inr rfl
      neither_iff := by simp [← hneither]
      ok_iff := by simp }

/-! ## Conclusions -/

/-- What was printed shows these rows, as the objects of a JSON list or line by line. The lines are
those of the text, unless a line feed is shown in one of them. -/
def Shows (json : Bool) (output : String) (rows : List Row) : Prop :=
  if json then ∃ table, table? output = some table ∧ table.map Row.ofMembers? = rows.map some
  else ∃ lines : List String, output = String.join (lines.map (· ++ "\n")) ∧
    lines.map Row.ofLine? = rows.map some ∧ ((∀ row ∈ rows, '\n' ∉ row.shown.toList) →
      output.toList.splitOn '\n' = lines.map String.toList ++ [[]])

theorem output_ofEntries (json : Bool) (es : List Entry) :
    (Verdict.ofEntries json es).output = if json then Entry.list es else Entry.lines es := by
  rw [Verdict.ofEntries]
  split <;> rfl

/-- Both ways of printing entries show the same rows. -/
theorem shows_ofEntries (json : Bool) (es : List Entry) :
    Shows json (Verdict.ofEntries json es).output (es.map Entry.row) := by
  rw [output_ofEntries]
  cases json with
  | true =>
    refine ⟨es.map Entry.members, table?_list es, ?_⟩
    simp [Row.ofMembers?_members]
  | false =>
    refine ⟨es.map Entry.line, ?_, ?_, fun hshown => splitOn_lines fun e he => ?_⟩
    · simp [Entry.lines, Function.comp_def]
    · simp [Row.ofLine?_line]
    · exact hshown e.row (List.mem_map_of_mem he)

/-- How a verdict judges entries. -/
structure Judges (es : List Entry) (v : Verdict) : Prop where
  /-- The status is zero exactly if all are in order. -/
  status_eq_zero_iff : v.status = 0 ↔ ∀ e ∈ es, e.ok = true
  /-- There is no error then. -/
  error_eq_none : (∀ e ∈ es, e.ok = true) → v.error = none
  /-- Otherwise the status is one, and the error counts those that are not in order, out of all. -/
  fails : (∃ e ∈ es, e.ok = false) → v.status = 1 ∧ v.error =
    some (toString (es.filter fun e => !e.ok).length ++ " of " ++ toString es.length ++ " shapes failed")

theorem judges_ofEntries (json : Bool) (es : List Entry) : Judges es (.ofEntries json es) := by
  have hzero : (es.countP fun e => !e.ok) = 0 ↔ ∀ e ∈ es, e.ok = true := by
    simp [List.countP_eq_zero]
  rw [Verdict.ofEntries]
  split
  next hall =>
    rw [hzero] at hall
    refine ⟨iff_of_true rfl hall, fun _ => rfl, fun ⟨e, he, hfailed⟩ => ?_⟩
    cases hfailed.symm.trans (hall e he)
  next hsome =>
    have hsome' := hsome
    rw [hzero] at hsome'
    refine ⟨iff_of_false nofun hsome', fun hall => absurd hall hsome', fun _ => ⟨rfl, ?_⟩⟩
    rw [List.countP_eq_length_filter]

/-- What is concluded from trials that took so long, as entries and as the verdict on them. -/
structure Concludes (o : Options) (ts : List Trial) (elapsed : List Duration) (es : List Entry) : Prop where
  /-- There is one entry for each trial, in order. -/
  shapes_eq : es.map Entry.shape = ts.map Trial.shape
  /-- It comes of this trial and its time alone, whatever the others have come to. -/
  entry_eq : ∀ (i : Nat) t time, ts[i]? = some t → elapsed[i]? = some time →
    es[i]? = some (Entry.ofTrial o t time)
  /-- It says what was delivered. -/
  tells : ∀ (i : Nat) t time d, ts[i]? = some t → elapsed[i]? = some time → Delivers t.shape d →
    t.outcome = extracted d → ∃ e, es[i]? = some e ∧ e.Tells o t.shape d time
  /-- The JSON list holds the members of each entry. -/
  table_eq : table? (conclude { o with json := true } ts elapsed).output = some (es.map Entry.members)
  /-- The time there is written so that it is read as the number of milliseconds that it was. -/
  time_eq : ∀ e ∈ es, Text.double (Text.Scientific.shortest (Entry.milliseconds e.elapsed)).value =
    Entry.milliseconds e.elapsed
  /-- The JSON list and the lines show the same rows. -/
  shows : ∀ json, Shows json (conclude { o with json := json } ts elapsed).output (es.map Entry.row)
  /-- The verdict is on these entries, however they are printed. -/
  judges : ∀ json, Judges es (conclude { o with json := json } ts elapsed)

theorem map_shape_zipWith (o : Options) (ts : List Trial) (elapsed : List Duration)
    (hlength : elapsed.length = ts.length) :
    (List.zipWith (Entry.ofTrial o) ts elapsed).map Entry.shape = ts.map Trial.shape := by
  induction ts generalizing elapsed with
  | nil => rfl
  | cons t ts ih =>
    cases elapsed with
    | nil => cases hlength
    | cons d elapsed =>
      have hshape : (Entry.ofTrial o t d).shape = t.shape := by rw [Entry.ofTrial]
      rw [List.zipWith_cons_cons, List.map_cons, List.map_cons, hshape,
        ih elapsed (Nat.succ.inj hlength)]

/-- Whatever trials have come to and however long they took, there is one entry for each, and all
that is concluded agrees with them. -/
theorem exists_concludes (o : Options) {ts : List Trial} {elapsed : List Duration}
    (hlength : elapsed.length = ts.length) : ∃ es, Concludes o ts elapsed es := by
  have hentry {i : Nat} {t : Trial} {time : Duration} (ht : ts[i]? = some t)
      (htime : elapsed[i]? = some time) :
      (List.zipWith (Entry.ofTrial o) ts elapsed)[i]? = some (Entry.ofTrial o t time) := by
    rw [List.getElem?_zipWith, ht, htime]
  refine ⟨List.zipWith (Entry.ofTrial o) ts elapsed, ?_⟩
  exact {
    shapes_eq := map_shape_zipWith o ts elapsed hlength
    entry_eq := fun _ _ _ => hentry
    tells := fun _ _ time _ ht htime hd houtcome =>
      ⟨_, hentry ht htime, tells_ofTrial hd houtcome time⟩
    table_eq := (congrArg table? (output_ofEntries true _)).trans (table?_list _)
    time_eq := fun e _ => double_shortest_milliseconds e.elapsed
    shows := fun json => shows_ofEntries json _
    judges := fun json => judges_ofEntries json _ }

/-! ## Calls -/

/-- A shape is asked for by this word. -/
inductive Shape.Called : Shape → String → Prop
  | block : Called .block "block"
  | spawn : Called .spawn "spawn"
  | mono : Called .mono "mono"
  | maybe : Called .maybe "maybe"
  | stream : Called .stream "stream"

/-- It is found by its word. -/
theorem Shape.called_of_ofName? {shape : Shape} {word : String} (h : ofName? word = some shape) :
    shape.Called word := by
  obtain rfl : shape.name = word := by simpa using List.find?_some h
  cases shape <;> constructor

/-- What the arguments `l` ask for. -/
structure Options.Requested (l : List Argument) (o : Options) : Prop where
  /-- The shapes that were asked for are those that are named, in order and as often
  as they are named. -/
  only : List.Forall₂ Shape.Called o.only (valuesOf .only l)
  /-- They are tried, or all five if none was. -/
  shapes_eq : o.shapes = if valuesOf .only l = [] then [.block, .spawn, .mono, .maybe, .stream] else o.only
  /-- This value is echoed. -/
  value_eq : o.value = (valuesOf .value l).head?.getD "forte"
  /-- It is echoed after so many milliseconds. -/
  delay : ∃ n? : Option Nat, List.Forall₂ (fun n word => Text.Numeral word.toList n ∧ n < 2 ^ 64)
    n?.toList (valuesOf .delay l) ∧ o.delay.nanoseconds = n?.getD 100 * 10 ^ 6
  /-- A JSON list is printed if it is asked for. -/
  json_iff : o.json = true ↔ .flag .json ∈ l

/-- What is read from every word of a list stands for it. -/
theorem forall₂_of_map_some {A : Type} {read : String → Option A} {P : A → String → Prop}
    {as : List A} {words : List String} (hread : ∀ a word, read word = some a → P a word)
    (h : as.map some = words.map read) : List.Forall₂ P as words := by
  rw [← List.forall₂_eq_eq_eq, List.forall₂_map_left_iff, List.forall₂_map_right_iff] at h
  exact h.imp fun a word hsome => hread a word hsome.symm

theorem requested_of_read (hspelled : Spelled arguments l)
    (hread : Options.read arguments bindings = .ok o) : o.Requested l := by
  obtain ⟨g, n?, hgiven, rfl⟩ := Options.exists_given_of_read hread
  have hextends := Given.extends_of_spelled hspelled hgiven
  have honly : g.only.map some = (valuesOf .only l).map Shape.ofName? := hextends.only
  have hvalue : g.value.toList = valuesOf .value l := by
    have hreads : g.value.toList.map some = (valuesOf .value l).map some := hextends.value
    exact (List.map_inj_right fun _ _ => Option.some.inj).mp hreads
  have hdelay : g.delay.toList.map some = (valuesOf .delay l).map number? := hextends.delay
  refine ⟨forall₂_of_map_some (fun _ _ => Shape.called_of_ofName?) honly, ?_, ?_, ?_, ?_⟩
  · have hempty : g.only = [] ↔ valuesOf .only l = [] := by
      rw [← List.map_eq_nil_iff (f := some), honly, List.map_eq_nil_iff]
    simp only [Options.shapes, Given.options, hempty, Shape.all]
  · rw [← hvalue, Given.options]
    cases g.value <;> rfl
  · refine ⟨g.delay, forall₂_of_map_some (fun n word hn => ?_) hdelay, rfl⟩
    exact (Text.readNatural?_eq_some_iff.mp hn).imp_right Text.le_maxWord_iff.mp
  · have hjson := hextends.json
    simp [Given.options, hjson]

/-- What a call of the probe reports. -/
structure Reporting (default : Option String) (files : Files) (bindings : List (String × ByteArray))
    (arguments : List String) : Prop where
  /-- It does what its arguments ask for. -/
  requested : ∀ o, Options.read arguments bindings = .ok o →
    (∃ l, Spelled arguments l) ∧ ∀ l, Spelled arguments l → o.Requested l
  /-- If it has built its scope, it tries every shape, in order, whatever the others come to. -/
  tried : ∀ o c s w, Options.read arguments bindings = .ok o → settings default files bindings o = .ok c →
    ({} : System String).build c = .built s w → ∃ ts, course default files bindings arguments = .trials o ts ∧
      ts.map Trial.shape = o.shapes ∧
      ∀ t ∈ ts, Comes o t.shape t.outcome ∧ ∃ d, Delivers t.shape d ∧ t.outcome = extracted d
  /-- What is extracted from a reservation, in whatever state the scopes and the other reservations
  are, was delivered as the shape can deliver it. -/
  extracts : ∀ actions r x, (run {} actions).reservations[r]? = some x → Reserved r x → ∀ o shape result,
    extract o r (run {} actions) shape = some result → ∃ d, Delivers shape d ∧ result = extracted d
  /-- Whatever the trials have come to and however long they took, there is one entry for each
  shape, and all that is concluded agrees with them. -/
  concluded : ∀ o ts elapsed, ts.map Trial.shape = o.shapes → elapsed.length = ts.length →
    ∃ es, Concludes o ts elapsed es ∧ es.map Entry.shape = o.shapes
  /-- It prints nothing if the configuration is not loaded, and tells why. -/
  unsettled : ∀ o e, Options.read arguments bindings = .ok o → settings default files bindings o = .error e →
    course default files bindings arguments = .over { output := "", error := some e.message, status := 1 }
  /-- It prints nothing if the scope is not built, and tells why. -/
  unbuilt : ∀ o c f, Options.read arguments bindings = .ok o → settings default files bindings o = .ok c →
    ({} : System String).build c = .refused f →
      course default files bindings arguments = .over { output := "", error := some f.message, status := 1 }
  /-- It prints nothing if it panics over the scope. -/
  collapsed : ∀ o c, Options.read arguments bindings = .ok o → settings default files bindings o = .ok c →
    ({} : System String).build c = .collapsed →
      course default files bindings arguments = .over { output := "", error := none, status := 101 }

/-- What a call of the probe reports is complete, and its parts agree. -/
theorem reporting_call (default : Option String) (files : Files) (bindings : List (String × ByteArray))
    (arguments : List String) : Reporting default files bindings arguments where
  requested o hread := by
    obtain ⟨g, n?, hgiven, -⟩ := Options.exists_given_of_read hread
    exact ⟨Given.exists_spelled_of_read hgiven, fun l hspelled => requested_of_read hspelled hread⟩
  tried o c s w hread hsettings hbuild := by
    obtain ⟨ts, htrials, hshapes, hcomes⟩ := exists_trials (List.forall_mem_nil (Does o s)) hbuild o.shapes
    rw [run_cons, run_nil, act_build _ hbuild] at htrials
    refine ⟨ts, ?_, hshapes, fun t ht => ⟨hcomes t ht, (hcomes t ht).exists_delivers⟩⟩
    simp only [course, hread, hsettings, hbuild, htrials]
  extracts actions r x hx hreserved o shape result hresult := by
    obtain ⟨d, hd, rfl⟩ := Option.map_eq_some_iff.mp hresult
    exact ⟨d, delivers_wait hx hreserved o shape hd, rfl⟩
  concluded o ts elapsed hshapes hlength := by
    obtain ⟨es, hconcludes⟩ := exists_concludes o hlength
    exact ⟨es, hconcludes, hconcludes.shapes_eq.trans hshapes⟩
  unsettled o e hread hsettings := by simp only [course, hread, hsettings]
  unbuilt o c f hread hsettings hbuild := by simp only [course, hread, hsettings, hbuild]
  collapsed o c hread hsettings hbuild := by simp only [course, hread, hsettings, hbuild]

end Deferral.Probe
