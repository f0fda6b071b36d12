import Deferral.Failure
import Deferral.Proofs.Duration

/-!
# Which failure a message tells

A message begins with a wording for the kind of failure, and no such wording is the beginning of
another one. So a message tells the kind, however free the text is that it goes on with, and then
the text or the duration can be read off what follows.

Main statements:
* `kind_eq_of_message_eq`: a message tells the kind of failure.
* `message_identifies`: simple failures are told by their messages, and durations by their texts.
-/

namespace Deferral.Failure

/-- The kinds of failures. -/
inductive Kind
  /-- The computation was dropped. -/
  | cancelled
  /-- It panicked. -/
  | panicked
  /-- A bounded wait gave up. -/
  | timedOut
  /-- The scope was shut down. -/
  | scopeClosed
  /-- A configuration file could not be read. -/
  | unreadable
  /-- It is no document of the expected form. -/
  | malformed
  /-- The configuration is invalid. -/
  | invalid
  /-- The threads could not be created. -/
  | build
  deriving DecidableEq

/-- What kind of failure it is. -/
def kind : Failure → Kind
  | cancelled => .cancelled
  | panicked _ => .panicked
  | timedOut _ => .timedOut
  | scopeClosed => .scopeClosed
  | config (.unreadable _ _) => .unreadable
  | config .malformed => .malformed
  | config (.invalid _) => .invalid
  | build _ => .build

/-- All kinds. -/
def Kind.all : List Kind :=
  [.cancelled, .panicked, .timedOut, .scopeClosed, .unreadable, .malformed, .invalid, .build]

/-- What the messages of a kind begin with. -/
def Kind.opening : Kind → String
  | cancelled => "reserved computation was cancelled before completing"
  | panicked => "reserved computation panicked: "
  | timedOut => "timed out after "
  | scopeClosed => "reserve scope is closed"
  | unreadable => "invalid reserve scope configuration: " ++ "Failed to read config file at "
  | malformed => "invalid reserve scope configuration: " ++ "Failed to parse TOML config"
  | invalid => "invalid reserve scope configuration: " ++ "Invalid configuration: "
  | build => "failed to build reserve runtime: "

/-- What a message goes on with. -/
def detail : Failure → String
  | cancelled | scopeClosed | config .malformed => ""
  | panicked text => text
  | timedOut limit => limit.text ++ " waiting for reserved computation"
  | config (.unreadable path cause) => path ++ (": " ++ cause)
  | config (.invalid reason) => reason
  | build cause => cause

variable {e e' : Failure}

theorem Kind.mem_all (k : Kind) : k ∈ all := by
  cases k <;> decide

/-- No opening is the beginning of another one. -/
theorem Kind.eq_of_opening_prefix {k k' : Kind} (h : k.opening.toList <+: k'.opening.toList) :
    k = k' := by
  have hall : ∀ k ∈ all, ∀ k' ∈ all, k.opening.toList <+: k'.opening.toList → k = k' := by
    decide +kernel
  exact hall k k.mem_all k' k'.mem_all h

/-- A message is the opening for the kind of failure with the detail behind it. -/
theorem message_eq (e : Failure) : e.message = e.kind.opening ++ e.detail := by
  cases e with
  | cancelled => exact String.append_empty.symm
  | scopeClosed => exact String.append_empty.symm
  | panicked text => rfl
  | build text => rfl
  | timedOut limit => exact String.append_assoc
  | config cause =>
    cases cause with
    | malformed => exact String.append_empty.symm
    | invalid reason => exact String.append_assoc.symm
    | unreadable path cause =>
      have hpath : "Failed to read config file at " ++ path ++ ": " ++ cause =
          "Failed to read config file at " ++ (path ++ (": " ++ cause)) := by
        rw [String.append_assoc, String.append_assoc]
      exact (congrArg ("invalid reserve scope configuration: " ++ ·) hpath).trans
        String.append_assoc.symm

/-! ## What a message tells -/

/-- A message tells the kind of failure. -/
theorem kind_eq_of_message_eq (h : e.message = e'.message) : e.kind = e'.kind := by
  have hopening (e : Failure) : e.kind.opening.toList <+: e.message.toList := by
    rw [message_eq, String.toList_append]
    exact List.prefix_append _ _
  -- Of two beginnings of one text, one is the beginning of the other.
  rcases List.prefix_or_prefix_of_prefix (hopening e) (h ▸ hopening e') with hle | hle
  · exact Kind.eq_of_opening_prefix hle
  · exact (Kind.eq_of_opening_prefix hle).symm

/-- It also tells the detail. -/
theorem detail_eq_of_message_eq (h : e.message = e'.message) : e.detail = e'.detail := by
  have hmessage := message_eq e'
  rw [← h, message_eq, kind_eq_of_message_eq h] at hmessage
  exact String.append_right_inj _ |>.mp hmessage

/-- A failure whose message holds one text or duration at most, which are all but those of a
configuration file. -/
inductive IsSimple : Failure → Prop
  /-- The computation was dropped. -/
  | cancelled : IsSimple .cancelled
  /-- The scope was shut down. -/
  | scopeClosed : IsSimple .scopeClosed
  /-- The computation panicked with a text. -/
  | panicked (text : String) : IsSimple (.panicked text)
  /-- A wait gave up after a time. -/
  | timedOut (limit : Duration) : IsSimple (.timedOut limit)
  /-- The configuration is invalid for a reason. -/
  | invalid (reason : String) : IsSimple (.config (.invalid reason))
  /-- The threads could not be created, for a cause. -/
  | build (cause : String) : IsSimple (.build cause)

/-- Such failures differ in their kind or in their detail. -/
theorem IsSimple.eq_of_kind_eq (h : e.IsSimple) (h' : e'.IsSimple) (hkind : e.kind = e'.kind)
    (hdetail : e.detail = e'.detail) : e = e' := by
  cases h <;> cases h' <;> cases hkind
  case cancelled.cancelled.refl => rfl
  case scopeClosed.scopeClosed.refl => rfl
  case panicked.panicked.refl text text' => exact congrArg Failure.panicked hdetail
  case timedOut.timedOut.refl limit limit' =>
    -- The same words follow the two durations.
    have htext : limit.text = limit'.text := (String.append_left_inj _).mp hdetail
    exact congrArg Failure.timedOut (Duration.text_injective htext)
  case invalid.invalid.refl reason reason' => exact congrArg (fun r => config (.invalid r)) hdetail
  case build.build.refl cause cause' => exact congrArg Failure.build hdetail

/-- A failure to read a file is not simple. -/
theorem IsSimple.kind_ne_unreadable (h : e.IsSimple) : e.kind ≠ .unreadable := by
  intro hkind
  cases h <;> cases hkind

/-- What can be told from messages. -/
structure Identifies : Prop where
  /-- The messages of simple failures are different for different kinds, texts and durations. -/
  simple : ∀ e e' : Failure, e.IsSimple → e'.IsSimple → (e.message = e'.message ↔ e = e')
  /-- None of them is the message of a file that could not be read, whatever its
  path and the cause. -/
  not_unreadable : ∀ e : Failure, e.IsSimple → ∀ path cause,
    e.message ≠ (config (.unreadable path cause)).message
  /-- Different durations have different texts. -/
  durations : ∀ d d' : Duration, d.text = d'.text ↔ d = d'
  /-- The text of a duration tells its nanoseconds exactly. -/
  exactly : ∀ d : Duration, Duration.nanosecondsOf d.text.toList = d.nanoseconds

/-- Messages identify simple failures, and their texts identify durations. -/
theorem message_identifies : Identifies where
  simple e e' h h' := by
    constructor
    · intro hmessage
      exact h.eq_of_kind_eq h' (kind_eq_of_message_eq hmessage) (detail_eq_of_message_eq hmessage)
    · rintro rfl
      rfl
  not_unreadable e h path cause hmessage := h.kind_ne_unreadable (kind_eq_of_message_eq hmessage)
  durations d d' := Duration.text_injective.eq_iff
  exactly d := by
    rw [Duration.text, String.toList_ofList, Duration.nanosecondsOf_characters]

end Deferral.Failure
