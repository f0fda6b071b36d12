import Deferral.Global
import Deferral.Proofs.Config.Sufficiency
import Deferral.Proofs.System.Holding

/-!
# One scope for the process

However many inquiries for the process-wide scope are under way, and however their steps are mixed,
all are answered with the same scope. A scope that loses the race was used by nobody, and its pool
is shut down in the background. No inquiry fails for want of a valid configuration.

Main statements:
* `Lawful.step`: what every step preserves.
* `oneScope_run`: what can be relied on in every process.
-/

namespace Deferral

/-- The configuration of the process-wide scope is the one that is loaded, or the defaults if that
fails. -/
theorem globalSettings_cases (files : Files) (env : Environment) :
    loadDefault files env = .ok (globalSettings files env) ∨
      (∃ e, loadDefault files env = .error e) ∧ globalSettings files env = {} := by
  rw [globalSettings]
  split
  next hload => exact .inl hload
  next e hload => exact .inr ⟨⟨e, hload⟩, rfl⟩

/-- The process-wide scope has a valid configuration, whatever the files and the
environment hold. -/
theorem validate_globalSettings (files : Files) (env : Environment) :
    (globalSettings files env).validate = .ok () := by
  rcases globalSettings_cases files env with hload | ⟨-, hdefault⟩
  · exact (load_eq_ok_iff.mp hload).2
  · rw [hdefault]
    exact Settings.validate_default

namespace System

variable {V : Type} {w : System V} {s : ScopeId}

/-- Valid settings are not refused. -/
theorem build_ne_refused {c : Settings} {f : Failure} (h : c.validate = .ok ()) :
    w.build c ≠ .refused f := by
  intro hbuild
  simp only [build, h] at hbuild
  split at hbuild <;> cases hbuild

/-- Whoever builds a scope panics only if its threads cannot be made. -/
theorem create?_of_collapsed {c : Settings} (h : w.build c = .collapsed) :
    Pool.create? c.threadName c.workers c.stackSize = none := by
  rw [build] at h
  split at h
  next => cases h
  next =>
    split at h
    next hnone => exact hnone
    next => cases h

end System

namespace Global

variable {V : Type} {g g' : Global V} {i j : Nat} {s t : ScopeId} {q q' : Inquiry}

/-- The process after a sequence of steps. -/
def run (g : Global V) (steps : List (Step V)) : Global V :=
  steps.foldl step g

theorem run_cons (g : Global V) (a : Step V) (steps : List (Step V)) :
    g.run (a :: steps) = (g.step a).run steps := rfl

/-! ## Steps -/

/-- An inquiry that is there after a step was there before, unless it is `i`, which is `q` now. -/
def Turns (i : Nat) (q : Inquiry) (g g' : Global V) : Prop :=
  ∀ (j : Nat) (q' : Inquiry), g'.inquiries[j]? = some q' →
    j = i ∧ q' = q ∨ j ≠ i ∧ g.inquiries[j]? = some q'

/-- After a change of one inquiry, the others are as they were. -/
theorem turns_of_set (h : g'.inquiries = g.inquiries.set i q) : Turns i q g g' := by
  intro j q' hj
  rw [h] at hj
  by_cases hji : i = j
  · subst hji
    rw [List.getElem?_set_self'] at hj
    obtain ⟨-, -, rfl⟩ := Option.map_eq_some_iff.mp hj
    exact .inl ⟨rfl, rfl⟩
  · rw [List.getElem?_set_ne hji] at hj
    exact .inr ⟨Ne.symm hji, hj⟩

/-- What an inquiry has been changed to. -/
theorem getElem?_update (hi : g.inquiries[i]? = some q) (q' : Inquiry) :
    (g.update i q').inquiries[i]? = some q' :=
  List.getElem?_set_self (List.getElem?_eq_some_iff.mp hi).1

/-- A step that leaves the inquiries alone. -/
theorem turns_of_eq (h : g'.inquiries = g.inquiries) : Turns g.inquiries.length .begun g g' := by
  intro j q' hj
  rw [h] at hj
  exact .inr ⟨Nat.ne_of_lt (List.getElem?_eq_some_iff.mp hj).1, hj⟩

/-- A further inquiry is made. -/
theorem turns_ask (g : Global V) : Turns g.inquiries.length .begun g g.ask := by
  intro j q' hj
  rw [ask, List.getElem?_append] at hj
  split at hj
  next hlt => exact .inr ⟨Nat.ne_of_lt hlt, hj⟩
  next hle =>
    have hlt := (List.getElem?_eq_some_iff.mp hj).1
    rw [List.length_singleton] at hlt
    obtain rfl := List.mem_singleton.mp (List.mem_of_getElem? hj)
    exact .inl ⟨by omega, rfl⟩

/-- What becomes of the process when the inquiry `i`, which is at `q`, goes on. -/
inductive Advances (g : Global V) (i : Nat) : Inquiry → Global V → Prop
  /-- It finds the scope, and is answered with it. -/
  | meet {s : ScopeId} (hplace : g.place = some s) : Advances g i .begun (g.answer i s)
  /-- It finds no scope. -/
  | miss (hplace : g.place = none) : Advances g i .begun (g.update i .unmet)
  /-- It loads the configuration. -/
  | load (files : Files) (env : Environment) :
      Advances g i .unmet (g.update i (.loaded (globalSettings files env)))
  /-- The threads of the scope cannot be made. -/
  | collapse {c : Settings} (hpool : Pool.create? c.threadName c.workers c.stackSize = none) :
      Advances g i (.loaded c) (g.update i .collapsed)
  /-- It builds a scope. -/
  | build {c : Settings} {s : ScopeId} {w : System V} (hbuild : g.system.build c = .built s w) :
      Advances g i (.loaded c) ({ g with system := w }.update i (.built s))
  /-- Its scope is the first, and is kept. -/
  | keep {s : ScopeId} (hplace : g.place = none) :
      Advances g i (.built s) ({ g with place := some s }.answer i s)
  /-- Its scope comes too late, and is dropped. -/
  | lose {s kept : ScopeId} (hplace : g.place = some kept) :
      Advances g i (.built s) ({ g with system := g.system.unshare s }.answer i kept)
  /-- It was answered before. -/
  | answered {o : Except Failure ScopeId} : Advances g i (.answered o) g
  /-- It has ended in a panic before. -/
  | collapsed : Advances g i .collapsed g

/-- An inquiry goes on in one of these ways, if the configuration that it has loaded is valid. -/
theorem advances_advance (hi : g.inquiries[i]? = some q)
    (hvalid : ∀ c, q = .loaded c → c.validate = .ok ()) (files : Files) (env : Environment) :
    g.Advances i q (g.advance i files env) := by
  rw [advance, hi]
  cases q with
  | begun =>
    dsimp only
    split
    next hplace => exact .meet hplace
    next hplace => exact .miss hplace
  | unmet => exact .load files env
  | loaded c =>
    show g.Advances i (.loaded c) (g.build i c)
    rw [build]
    split
    next hbuild => exact absurd hbuild (System.build_ne_refused (hvalid c rfl))
    next hbuild => exact .collapse (System.create?_of_collapsed hbuild)
    next hbuild => exact .build hbuild
  | built s =>
    show g.Advances i (.built s) (g.offer i s)
    rw [offer]
    split
    next hplace => exact .keep hplace
    next hplace => exact .lose hplace
  | answered o => exact .answered
  | collapsed => exact .collapsed

/-- An inquiry that is not there does not go on. -/
theorem advance_of_absent (hi : g.inquiries[i]? = none) (files : Files) (env : Environment) :
    g.advance i files env = g := by
  rw [advance, hi]

/-- What has been built so far, and who has it. -/
structure Lawful (g : Global V) : Prop where
  /-- Besides the inquiries, the process is a system in some run. -/
  exists_run : ∃ actions, g.system = System.run {} actions
  /-- The configurations that were loaded are valid. -/
  loaded : ∀ (i : Nat) (c : Settings), g.inquiries[i]? = some (.loaded c) → c.validate = .ok ()
  /-- A scope that was built and not offered is spare. -/
  built : ∀ (i : Nat) (s : ScopeId), g.inquiries[i]? = some (.built s) →
    g.system.Spare s 1 ∧ g.place ≠ some s
  /-- No two inquiries have built the same scope. -/
  distinct : ∀ (i j : Nat) (s : ScopeId), g.inquiries[i]? = some (.built s) →
    g.inquiries[j]? = some (.built s) → i = j
  /-- Inquiries are answered with the process-wide scope. -/
  answered : ∀ (i : Nat) (o : Except Failure ScopeId), g.inquiries[i]? = some (.answered o) →
    ∃ s, o = .ok s ∧ g.place = some s
  /-- The process holds a reference to this scope, which was built with a pool. -/
  kept : ∀ s, g.place = some s → s ∈ g.system.held ∧
    ∃ early further scope, g.system = (System.run {} early).run further ∧
      (System.run {} early).scopes[s]? = some scope ∧ scope.owns = true

namespace Lawful

theorem empty : Lawful ({} : Global V) where
  exists_run := ⟨[], rfl⟩
  loaded i c h := by simp at h
  built i s h := by simp at h
  distinct i j s h := by simp at h
  answered i o h := by simp at h
  kept s h := by cases h

/-- Whatever the system refers to is there. -/
theorem valid (h : g.Lawful) : g.system.Valid := by
  obtain ⟨actions, hactions⟩ := h.exists_run
  rw [hactions]
  exact System.valid_run actions

/-- A scope that was built and not offered is hidden from the rest of the process. -/
theorem isHidden_of_built (h : g.Lawful) (hs : g.inquiries[i]? = some (.built s)) :
    g.isHidden s = true := by
  have hmem : s ∈ g.reserved :=
    List.mem_append_right _ (List.mem_filterMap.mpr ⟨_, List.mem_of_getElem? hs, rfl⟩)
  have hcount := (h.built i s hs).1.unused.count_eq
  have hpos := List.count_pos_iff.mpr hmem
  rw [isHidden, Bool.and_eq_true]
  exact ⟨decide_eq_true hmem, decide_eq_true (by omega)⟩

/-- What was built and goes on with the rest of the process was built. -/
theorem exists_built_run {w : System V} (actions : List (Action V))
    (h : ∃ early further scope, w = (System.run {} early).run further ∧
      (System.run {} early).scopes[s]? = some scope ∧ scope.owns = true) :
    ∃ early further scope, w.run actions = (System.run {} early).run further ∧
      (System.run {} early).scopes[s]? = some scope ∧ scope.owns = true := by
  obtain ⟨early, further, scope, rfl, hscope, hown⟩ := h
  exact ⟨early, further ++ actions, scope, (System.run_append ..).symm, hscope, hown⟩

/-- One inquiry changes, and some actions are taken which use no scope that another inquiry has
built. -/
theorem move (h : g.Lawful) (actions : List (Action V))
    (hturns : Turns i q g g') (hsystem : g'.system = g.system.run actions)
    (hspare : ∀ j s, j ≠ i → g.inquiries[j]? = some (.built s) → g'.system.Spare s 1)
    (hplace : g'.place = g.place ∨
      g.place = none ∧ ∃ s, g.inquiries[i]? = some (.built s) ∧ g'.place = some s)
    (hheld : ∀ s, g'.place = some s → s ∈ g'.system.held)
    (hloaded : ∀ c, q = .loaded c → c.validate = .ok ())
    (hbuilt : ∀ s, q = .built s → g'.system.Spare s 1 ∧ g'.place ≠ some s ∧
      ∀ j, j ≠ i → g.inquiries[j]? ≠ some (.built s))
    (hanswered : ∀ o, q = .answered o → ∃ s, o = .ok s ∧ g'.place = some s) : g'.Lawful where
  exists_run := by
    obtain ⟨early, hearly⟩ := h.exists_run
    exact ⟨early ++ actions, by rw [hsystem, hearly, System.run_append]⟩
  loaded j c hc := by
    rcases hturns j _ hc with ⟨-, hq⟩ | ⟨-, hold⟩
    · exact hloaded c hq.symm
    · exact h.loaded j c hold
  built j s hs := by
    rcases hturns j _ hs with ⟨-, hq⟩ | ⟨hji, hold⟩
    · -- This inquiry has just built its scope.
      obtain ⟨hspare, hne, -⟩ := hbuilt s hq.symm
      exact ⟨hspare, hne⟩
    · refine ⟨hspare j s hji hold, ?_⟩
      rcases hplace with hsame | ⟨-, t, ht, hplace⟩
      · rw [hsame]
        exact (h.built j s hold).2
      · -- The scope that is kept is that of the other inquiry.
        rw [hplace]
        rintro ⟨⟩
        exact hji (h.distinct j i s hold ht)
  distinct j k s hj hk := by
    rcases hturns j _ hj with ⟨rfl, hq⟩ | ⟨hji, hold⟩
    · rcases hturns k _ hk with ⟨rfl, -⟩ | ⟨hki, hold⟩
      · rfl
      · exact absurd hold ((hbuilt s hq.symm).2.2 k hki)
    · rcases hturns k _ hk with ⟨rfl, hq⟩ | ⟨-, hold'⟩
      · exact absurd hold ((hbuilt s hq.symm).2.2 j hji)
      · exact h.distinct j k s hold hold'
  answered j o ho := by
    rcases hturns j _ ho with ⟨-, hq⟩ | ⟨-, hold⟩
    · exact hanswered o hq.symm
    · obtain ⟨s, rfl, hs⟩ := h.answered j o hold
      rcases hplace with hsame | ⟨hnone, -⟩
      · exact ⟨s, rfl, hsame.trans hs⟩
      · cases hnone.symm.trans hs
  kept s hs := by
    refine ⟨hheld s hs, ?_⟩
    rw [hsystem]
    refine exists_built_run actions ?_
    rcases hplace with hsame | ⟨-, t, ht, hplace⟩
    · exact (h.kept s (hsame ▸ hs)).2
    · obtain rfl := Option.some.inj (hplace.symm.trans hs)
      obtain ⟨early, further, scope, hrun, hscope, hown, -⟩ := (h.built i t ht).1.built
      exact ⟨early, further, scope, hrun, hscope, hown⟩

/-- An inquiry turns to something that involves no scope, and nothing else happens. -/
theorem update (h : g.Lawful) (hloaded : ∀ c, q = .loaded c → c.validate = .ok ())
    (hbuilt : ∀ s, q ≠ .built s) (hanswered : ∀ o, q ≠ .answered o) : (g.update i q).Lawful :=
  h.move [] (turns_of_set rfl) rfl (fun j s _ hs => (h.built j s hs).1) (.inl rfl)
    (fun s hs => (h.kept s hs).1) hloaded (fun s hs => absurd hs (hbuilt s))
    (fun o ho => absurd ho (hanswered o))

/-- A further inquiry is made. -/
theorem ask (h : g.Lawful) : g.ask.Lawful :=
  h.move [] (turns_ask g) rfl (fun j s _ hs => (h.built j s hs).1) (.inl rfl)
    (fun s hs => (h.kept s hs).1) nofun nofun nofun

/-- An inquiry is answered with the scope that it finds. -/
theorem meet (h : g.Lawful) (hplace : g.place = some s) : (g.answer i s).Lawful := by
  refine h.move [.share s] (turns_of_set rfl) rfl ?_ (.inl rfl) ?_ nofun nofun ?_
  · intro j t _ ht
    obtain ⟨hspare, hne⟩ := h.built j t ht
    exact hspare.act (a := .share s) (fun _ hst => hne (hplace.trans (congrArg some hst))) nofun
  · intro t ht
    exact System.mem_held_act (a := .share s) (h.kept t ht).1 nofun
  · rintro o ⟨⟩
    exact ⟨s, rfl, hplace⟩

/-- An inquiry builds a scope that nobody else has. -/
theorem build {c : Settings} {w : System V} (h : g.Lawful)
    (hbuild : g.system.build c = .built s w) :
    ({ g with system := w }.update i (.built s)).Lawful := by
  have hact := System.act_build _ hbuild
  refine h.move [.build c] (turns_of_set rfl) hact.symm ?_ (.inl rfl) ?_ nofun ?_ nofun
  · intro j t _ ht
    show w.Spare t 1
    rw [← hact]
    exact (h.built j t ht).1.act (fun _ hfalse => hfalse) nofun
  · intro t ht
    show t ∈ w.held
    rw [← hact]
    exact System.mem_held_act (h.kept t ht).1 nofun
  · rintro t ⟨⟩
    -- The scope that is built is a new one.
    obtain ⟨actions, hactions⟩ := h.exists_run
    obtain ⟨-, -, -, hlength, -⟩ := System.eq_of_build _ hbuild
    refine ⟨System.spare_of_build (hactions ▸ hbuild), ?_, ?_⟩
    · intro hplace
      exact Nat.ne_of_lt (h.valid.held_lt s (h.kept s hplace).1) hlength
    · intro j _ hj
      exact Nat.ne_of_lt (h.built j s hj).1.unused.lt hlength

/-- No other inquiry has the scope that an inquiry has built. -/
theorem ne_of_built (h : g.Lawful) (hi : g.inquiries[i]? = some (.built s)) (hji : j ≠ i)
    (hj : g.inquiries[j]? = some (.built t)) : s ≠ t := by
  rintro rfl
  exact hji (h.distinct j i s hj hi)

/-- An inquiry offers the scope that it has built, and the process keeps it. -/
theorem keep (h : g.Lawful) (hi : g.inquiries[i]? = some (.built s)) (hplace : g.place = none) :
    ({ g with place := some s }.answer i s).Lawful := by
  refine h.move [.share s] (turns_of_set rfl) rfl ?_ (.inr ⟨hplace, s, hi, rfl⟩) ?_ nofun nofun ?_
  · intro j t hji ht
    exact (h.built j t ht).1.act (a := .share s) (fun _ hst => h.ne_of_built hi hji ht hst) nofun
  · rintro t ⟨⟩
    -- The inquiry has had a reference to the scope since it was built.
    have hheld : s ∈ g.system.held := by
      refine List.count_pos_iff.mp ?_
      rw [(h.built i s hi).1.unused.count_eq]
      exact Nat.one_pos
    exact System.mem_held_act (a := .share s) hheld nofun
  · rintro o ⟨⟩
    exact ⟨s, rfl, rfl⟩

/-- An inquiry offers the scope that it has built too late, and drops it. -/
theorem lose {kept : ScopeId} (h : g.Lawful) (hi : g.inquiries[i]? = some (.built s))
    (hplace : g.place = some kept) :
    ({ g with system := g.system.unshare s }.answer i kept).Lawful := by
  refine h.move [.unshare s, .share kept] (turns_of_set rfl) rfl ?_ (.inl rfl) ?_ nofun nofun ?_
  · -- A scope that another inquiry has built is neither the one dropped nor the one kept.
    intro j t hji ht
    obtain ⟨hspare, hne⟩ := h.built j t ht
    have hdropped := hspare.act (a := .unshare s) (fun _ hst => h.ne_of_built hi hji ht hst) nofun
    exact hdropped.act (a := .share kept)
      (fun _ hkt => hne (hplace.trans (congrArg some hkt))) nofun
  · intro t ht
    refine System.mem_held_act (a := .share kept)
      (System.mem_held_act (a := .unshare s) (h.kept t ht).1 ?_) nofun
    rintro ⟨⟩
    exact absurd ht (h.built i _ hi).2
  · rintro o ⟨⟩
    exact ⟨kept, rfl, hplace⟩

/-- An inquiry goes on. -/
theorem advances (h : g.Lawful) (hi : g.inquiries[i]? = some q) (hg : g.Advances i q g') :
    g'.Lawful := by
  cases hg with
  | meet hplace => exact h.meet hplace
  | miss | collapse => exact h.update nofun nofun nofun
  | load files env =>
    refine h.update ?_ nofun nofun
    rintro c ⟨⟩
    exact validate_globalSettings files env
  | build hbuild => exact h.build hbuild
  | keep hplace => exact h.keep hi hplace
  | lose hplace => exact h.lose hi hplace
  | answered | collapsed => exact h

/-- An action for which a caller needs a reference is not taken with a scope that is hidden. -/
theorem spare_act {a : Action V} (hspare : g.system.Spare s 1) (ha : s ∉ g.needs a) :
    (g.system.act a).Spare s 1 := by
  refine hspare.act (fun _ huses => ha ?_) (fun _ name scope hscope => ?_)
  · cases a with
    | share t | unshare t | beginShutdown t closing =>
      obtain rfl : t = s := huses
      exact List.mem_singleton_self t
    | reserve t name label computation => exact huses
    | _ => exact huses.elim
  · rintro rfl
    refine ha (List.mem_filter.mpr ⟨List.mem_range.mpr hspare.unused.lt, ?_⟩)
    rw [hscope, Option.any_some]
    exact decide_eq_true rfl

/-- Something happens besides inquiries. -/
theorem act (h : g.Lawful) (a : Action V) : (g.act a).Lawful := by
  rw [Global.act]
  split
  next => exact h
  next hfree =>
    rw [List.any_eq_true] at hfree
    refine h.move [a] (turns_of_eq rfl) rfl ?_ (.inl rfl) ?_ nofun nofun nofun
    · intro j s _ hs
      exact spare_act (h.built j s hs).1 fun hneeds =>
        hfree ⟨s, hneeds, h.isHidden_of_built hs⟩
    · intro s hs
      refine System.mem_held_act (h.kept s hs).1 ?_
      rintro rfl
      -- The reference of the process is not in the hands of callers.
      by_contra hcount
      have hmem : s ∈ g.reserved := List.mem_append_left _ (by simp [show g.place = some s from hs])
      have hpos := List.count_pos_iff.mpr hmem
      refine hfree ⟨s, List.mem_singleton_self s, ?_⟩
      rw [isHidden, Bool.and_eq_true]
      exact ⟨decide_eq_true hmem, decide_eq_true (by omega)⟩

/-- What holds if no inquiry goes on, and in whatever way one does, holds after its next step. -/
theorem advance_cases {P : Global V → Prop} (h : g.Lawful) (hself : P g)
    (hgo : ∀ q g', g.inquiries[i]? = some q → g.Advances i q g' → P g') (files : Files)
    (env : Environment) : P (g.advance i files env) := by
  cases hi : g.inquiries[i]? with
  | none =>
    rw [advance_of_absent hi]
    exact hself
  | some q =>
    refine hgo q _ hi (advances_advance hi ?_ files env)
    rintro c rfl
    exact h.loaded i c hi

/-- Every step keeps the law. -/
theorem step (h : g.Lawful) (a : Step V) : (g.step a).Lawful := by
  cases a with
  | ask => exact h.ask
  | act a => exact h.act a
  | advance i files env => exact h.advance_cases h (fun _ _ hi hg => h.advances hi hg) files env

/-- Every run keeps the law. -/
theorem run (h : g.Lawful) (steps : List (Step V)) : (g.run steps).Lawful := by
  induction steps generalizing g with
  | nil => exact h
  | cons a steps ih => exact ih (h.step a)

end Lawful

/-- In every process, the law is kept. -/
theorem lawful_run (steps : List (Step V)) : Lawful (run ({} : Global V) steps) :=
  Lawful.empty.run steps

/-! ## The system under the inquiries -/

/-- An inquiry that goes on takes actions of the system. -/
theorem Advances.exists_actions (h : g.Advances i q g') :
    ∃ actions, g'.system = g.system.run actions := by
  cases h with
  | @meet s | @keep s => exact ⟨[.share s], rfl⟩
  | miss | load | collapse | answered | collapsed => exact ⟨[], rfl⟩
  | @build c s w hbuild => exact ⟨[.build c], (System.act_build _ hbuild).symm⟩
  | @lose s kept => exact ⟨[.unshare s, .share kept], rfl⟩

/-- The process keeps its scope when an inquiry goes on. -/
theorem Advances.place_eq (h : g.Advances i q g') (hplace : g.place = some s) :
    g'.place = some s := by
  cases h with
  | keep hnone => cases hnone.symm.trans hplace
  | meet | miss | load | collapse | build | lose | answered | collapsed => exact hplace

namespace Lawful

/-- A run of the process is a run of the system. -/
theorem exists_actions_run (h : g.Lawful) (steps : List (Step V)) :
    ∃ actions, (g.run steps).system = g.system.run actions := by
  induction steps generalizing g with
  | nil => exact ⟨[], rfl⟩
  | cons a steps ih =>
    have hstep : ∃ actions, (g.step a).system = g.system.run actions := by
      cases a with
      | ask => exact ⟨[], rfl⟩
      | act a =>
        rw [Global.step, Global.act]
        split
        · exact ⟨[], rfl⟩
        · exact ⟨[a], rfl⟩
      | advance i files env =>
        exact h.advance_cases (P := fun g' => ∃ actions, g'.system = g.system.run actions)
          ⟨[], rfl⟩ (fun _ _ _ hg => hg.exists_actions) files env
    obtain ⟨before, hbefore⟩ := hstep
    obtain ⟨after, hafter⟩ := ih (h.step a)
    exact ⟨before ++ after, by rw [run_cons, hafter, hbefore, System.run_append]⟩

/-- The process keeps its scope for good. -/
theorem place_step (h : g.Lawful) (hplace : g.place = some s) (a : Step V) :
    (g.step a).place = some s := by
  cases a with
  | ask => exact hplace
  | act a =>
    rw [Global.step, Global.act]
    split <;> exact hplace
  | advance i files env =>
    exact h.advance_cases hplace (fun _ _ _ hg => hg.place_eq hplace) files env

/-- The process keeps its scope throughout a run. -/
theorem place_run (h : g.Lawful) (hplace : g.place = some s) (steps : List (Step V)) :
    (g.run steps).place = some s := by
  induction steps generalizing g with
  | nil => exact hplace
  | cons a steps ih => exact ih (h.step a) (h.place_step hplace a)

/-- As long as it is not shut down, the process-wide scope takes computations. -/
theorem poolAlive (h : g.Lawful) (hplace : g.place = some s)
    (hopen : g.system.isClosed s = false) : g.system.poolAlive s = true := by
  obtain ⟨hheld, early, further, scope, hrun, hscope, hown⟩ := h.kept s hplace
  rw [hrun] at hheld hopen ⊢
  exact System.poolAlive_run hscope hown (List.mem_append_left _ hheld) hopen

/-- One reference to the process-wide scope is in no caller's hands. -/
theorem count_reserved (h : g.Lawful) (hplace : g.place = some s) : g.reserved.count s = 1 := by
  have hnone : s ∉ g.inquiries.filterMap Inquiry.scope? := by
    intro hmem
    obtain ⟨q, hq, hscope⟩ := List.mem_filterMap.mp hmem
    obtain ⟨i, hi⟩ := List.mem_iff_getElem?.mp hq
    cases q with
    | built t =>
      cases hscope
      exact (h.built i s hi).2 hplace
    | _ => cases hscope
  rw [reserved, List.count_append, hplace, List.count_eq_zero_of_not_mem hnone]
  exact List.count_singleton_self

/-- A caller who has a reference to the process-wide scope can shut it down. -/
theorem isClosed_beginShutdown (h : g.Lawful) (hplace : g.place = some s)
    (hcount : 1 < g.system.held.count s) (closing : Closing) :
    (g.step (.act (.beginShutdown s closing))).system.isClosed s = true := by
  have hvisible : g.isHidden s = false := by
    rw [← h.count_reserved hplace] at hcount
    rw [isHidden, decide_eq_false (Nat.not_le.mpr hcount), Bool.and_false]
  rw [Global.step, Global.act, needs, List.any_cons, hvisible, List.any_nil, Bool.or_false,
    if_neg Bool.false_ne_true]
  exact System.isClosed_act_beginShutdown h.valid (h.kept s hplace).1 closing

end Lawful

/-! ## Answers -/

/-- How many steps an inquiry has still to take at most. -/
def remaining : Inquiry → Nat
  | .begun => 4
  | .unmet => 3
  | .loaded _ => 2
  | .built _ => 1
  | .answered _ | .collapsed => 0

/-- Whether the inquiry `i` goes on in a step. -/
def goesOn (i : Nat) : Step V → Bool
  | .advance j _ _ => j = i
  | _ => false

/-- Nothing is remaining to do for an inquiry that was answered, or has ended in a panic. -/
theorem eq_of_remaining (h : remaining q = 0) : (∃ o, q = .answered o) ∨ q = .collapsed := by
  cases q with
  | answered o => exact .inl ⟨o, rfl⟩
  | collapsed => exact .inr rfl
  | begun | unmet | loaded | built => cases h

/-- An inquiry that goes on has a step less to take. -/
theorem Advances.exists_remaining_le (h : g.Advances i q g') (hi : g.inquiries[i]? = some q) :
    ∃ q', g'.inquiries[i]? = some q' ∧ remaining q' ≤ remaining q - 1 := by
  cases h with
  | meet | miss | load | collapse | build | keep | lose =>
    exact ⟨_, getElem?_update hi _, by simp [remaining]⟩
  | answered | collapsed => exact ⟨_, hi, by simp [remaining]⟩

/-- An inquiry stays where it is while another one goes on. -/
theorem Advances.getElem?_ne (h : g.Advances i q g') (hne : i ≠ j) :
    g'.inquiries[j]? = g.inquiries[j]? := by
  cases h with
  | meet | miss | load | collapse | build | keep | lose => exact List.getElem?_set_ne hne
  | answered | collapsed => rfl

namespace Lawful

/-- An inquiry stays where it is in a step in which it does not go on. -/
theorem getElem?_step (h : g.Lawful) (hi : g.inquiries[i]? = some q) {a : Step V}
    (ha : goesOn i a = false) : (g.step a).inquiries[i]? = some q := by
  cases a with
  | ask =>
    rw [Global.step, Global.ask, List.getElem?_append_left (List.getElem?_eq_some_iff.mp hi).1, hi]
  | act a =>
    rw [Global.step, Global.act]
    split <;> exact hi
  | advance j files env =>
    have hne : j ≠ i := of_decide_eq_false ha
    exact h.advance_cases (P := fun g' => g'.inquiries[i]? = some q) hi
      (fun _ _ _ hg => (hg.getElem?_ne hne).trans hi) files env

/-- An inquiry has as many steps less to take as it has taken in a run. -/
theorem exists_remaining_le (h : g.Lawful) (hi : g.inquiries[i]? = some q)
    (steps : List (Step V)) :
    ∃ q', (g.run steps).inquiries[i]? = some q' ∧
      remaining q' ≤ remaining q - steps.countP (goesOn i) := by
  induction steps generalizing g q with
  | nil => exact ⟨q, hi, Nat.le_refl _⟩
  | cons a steps ih =>
    cases ha : goesOn i a with
    | false =>
      obtain ⟨q', hq', hle⟩ := ih (h.step a) (h.getElem?_step hi ha)
      rw [List.countP_cons_of_neg (by simp [ha])]
      exact ⟨q', hq', hle⟩
    | true =>
      -- Going on takes one of the steps that are left, if there is any.
      have hstep : ∃ q', (g.step a).inquiries[i]? = some q' ∧ remaining q' ≤ remaining q - 1 := by
        cases a with
        | ask | act => cases ha
        | advance j files env =>
          obtain rfl := of_decide_eq_true ha
          refine advances_advance hi ?_ files env |>.exists_remaining_le hi
          rintro c rfl
          exact h.loaded j c hi
      obtain ⟨q₁, hq₁, hle₁⟩ := hstep
      obtain ⟨q', hq', hle⟩ := ih (h.step a) hq₁
      rw [List.countP_cons_of_pos ha]
      exact ⟨q', hq', by omega⟩

/-- An inquiry that has taken four steps was answered, or has ended in a panic. -/
theorem answered_of_four_le (h : g.Lawful) (hi : i < g.inquiries.length) {steps : List (Step V)}
    (hsteps : 4 ≤ steps.countP (goesOn i)) :
    (∃ s, (g.run steps).inquiries[i]? = some (.answered (.ok s))) ∨
      (g.run steps).inquiries[i]? = some .collapsed := by
  obtain ⟨q', hq', hle⟩ := h.exists_remaining_le (List.getElem?_eq_getElem hi) steps
  have hfour : remaining g.inquiries[i] ≤ 4 := by
    cases g.inquiries[i] <;> simp [remaining]
  rcases eq_of_remaining (q := q') (by omega) with ⟨o, rfl⟩ | rfl
  · obtain ⟨s, rfl, -⟩ := (h.run steps).answered i o hq'
    exact .inl ⟨s, hq'⟩
  · exact .inr hq'

end Lawful

/-- An inquiry ends in a panic only if the threads of its scope cannot be made. -/
theorem Advances.create?_eq_none (h : g.Advances i q g') (hi : g.inquiries[i]? = some q)
    (hbefore : q ≠ .collapsed) (hafter : g'.inquiries[i]? = some .collapsed) :
    ∃ c, q = .loaded c ∧ Pool.create? c.threadName c.workers c.stackSize = none := by
  cases h with
  | collapse hpool => exact ⟨_, rfl, hpool⟩
  | meet | miss | load | build | keep | lose => cases (getElem?_update hi _).symm.trans hafter
  | answered | collapsed => exact absurd (Option.some.inj (hi.symm.trans hafter)) hbefore

/-- An inquiry that is answered by a step gets a reference of its own. -/
theorem Advances.count_held (h : g.Advances i q g') (hlaw : g.Lawful)
    (hi : g.inquiries[i]? = some q) (hbefore : q ≠ .answered (.ok s))
    (hafter : g'.inquiries[i]? = some (.answered (.ok s))) :
    g'.system.held.count s = g.system.held.count s + 1 := by
  cases h with
  | miss | load | collapse | build => cases (getElem?_update hi _).symm.trans hafter
  | answered | collapsed => exact absurd (Option.some.inj (hi.symm.trans hafter)) hbefore
  | meet hplace =>
    cases (getElem?_update hi _).symm.trans hafter
    exact System.count_held_share (hlaw.kept s hplace).1
  | keep =>
    cases (getElem?_update hi _).symm.trans hafter
    refine System.count_held_share (List.count_pos_iff.mp ?_)
    rw [(hlaw.built i s hi).1.unused.count_eq]
    exact Nat.one_pos
  | @lose t kept hplace =>
    cases (getElem?_update hi _).symm.trans hafter
    obtain ⟨hspare, hne⟩ := hlaw.built i t hi
    have hkept : t ≠ s := fun heq => hne (hplace.trans (congrArg some heq.symm))
    have hdropped := System.count_held_act (a := .unshare t)
      (hlaw.valid.held_lt s (hlaw.kept s hplace).1)
      fun _ => ⟨nofun, fun heq => hkept (Action.unshare.inj heq)⟩
    refine (System.count_held_share ?_).trans (congrArg (· + 1) hdropped)
    refine System.mem_held_act (a := .unshare t) (hlaw.kept s hplace).1 ?_
    rintro ⟨⟩
    exact absurd rfl hkept

/-! ## The race -/

/-- What has become of the scope `s` that the inquiry `i` has built. -/
inductive Raced (i : Nat) (s : ScopeId) (g : Global V) : Prop
  /-- It was not offered yet, and nobody can use it. -/
  | waiting (hinquiry : g.inquiries[i]? = some (.built s)) (hspare : g.system.Spare s 1) : Raced i s g
  /-- It is the process-wide scope. -/
  | kept (hplace : g.place = some s) : Raced i s g
  /-- It came too late. Nobody has ever used it, no computation was ever started on its pool, and
  the pool was shut down once, in the background. -/
  | lost {kept : ScopeId} (hplace : g.place = some kept) (hne : kept ≠ s)
      (hinquiry : g.inquiries[i]? = some (.answered (.ok kept))) (hspare : g.system.Spare s 0)
      (hstops : ∃ scope pool, g.system.scopes[s]? = some scope ∧
        g.system.pools[scope.pool]? = some pool ∧ pool.stops = [.background]) : Raced i s g

/-- A scope that was dropped unused has lost the race. -/
theorem Raced.of_spare {kept : ScopeId} (hplace : g.place = some kept) (hne : kept ≠ s)
    (hinquiry : g.inquiries[i]? = some (.answered (.ok kept))) (hspare : g.system.Spare s 0) :
    Raced i s g := by
  obtain ⟨scope, pool, hscope, -, hpool, hstops⟩ := hspare.exists_stops
  exact .lost hplace hne hinquiry hspare ⟨scope, pool, hscope, hpool, hstops⟩

/-- An inquiry that offers the scope that it has built decides about it. -/
theorem Raced.of_advances (hlaw : g.Lawful) (hi : g.inquiries[i]? = some (.built s))
    (h : g.Advances i (.built s) g') : Raced i s g' := by
  obtain ⟨hspare, hne⟩ := hlaw.built i s hi
  cases h with
  | keep => exact .kept rfl
  | @lose _ first hplace =>
    have hfirst : first ≠ s := fun heq => hne (hplace.trans (congrArg some heq))
    refine of_spare hplace hfirst (getElem?_update hi _) ?_
    exact hspare.unshare.run [.share first]

namespace Lawful

/-- Every step leaves a scope that was built waiting, or decides about it for good. -/
theorem raced_step (h : g.Lawful) (hs : Raced i s g) (a : Step V) : Raced i s (g.step a) := by
  cases hs with
  | kept hplace => exact .kept (h.place_step hplace a)
  | waiting hinquiry hspare =>
    cases ha : goesOn i a with
    | false =>
      have hi := h.getElem?_step hinquiry ha
      exact .waiting hi ((h.step a).built i s hi).1
    | true =>
      cases a with
      | ask | act => cases ha
      | advance j files env =>
        obtain rfl := of_decide_eq_true ha
        exact .of_advances h hinquiry (advances_advance hinquiry nofun files env)
  | @lost kept hplace hne hinquiry hspare =>
    obtain ⟨actions, hactions⟩ := h.exists_actions_run [a]
    refine .of_spare (h.place_step hplace a) hne ?_ ?_
    · cases ha : goesOn i a with
      | false => exact h.getElem?_step hinquiry ha
      | true =>
        cases a with
        | ask | act => cases ha
        | advance j files env =>
          obtain rfl := of_decide_eq_true ha
          rw [Global.step, Global.advance, hinquiry]
          exact hinquiry
    · -- A scope that was not kept stays spare.
      show (g.run [a]).system.Spare s 0
      rw [hactions]
      exact hspare.run actions

/-- A scope that was built has its place in the race throughout a run. -/
theorem raced_run (h : g.Lawful) (hs : Raced i s g) (steps : List (Step V)) :
    Raced i s (g.run steps) := by
  induction steps generalizing g with
  | nil => exact hs
  | cons a steps ih => exact ih (h.step a) (h.raced_step hs a)

end Lawful

/-- What can be relied on with the scope of the process. -/
structure OneScope (g : Global V) : Prop where
  /-- Every inquiry that is answered is answered with the one scope. -/
  agrees : ∀ (i : Nat) (s : ScopeId), g.inquiries[i]? = some (.answered (.ok s)) → g.place = some s
  /-- No inquiry fails: what was loaded is valid, for want of anything better the defaults. -/
  noFailure : ∀ (i : Nat) (f : Failure), g.inquiries[i]? ≠ some (.answered (.error f))
  /-- An inquiry loads a configuration that is valid: the defaults, if loading fails. -/
  configures : ∀ (i : Nat) (files : Files) (env : Environment), g.inquiries[i]? = some .unmet →
    ∃ c, (g.advance i files env).inquiries[i]? = some (.loaded c) ∧ c.validate = .ok () ∧
      (loadDefault files env = .ok c ∨ (∃ e, loadDefault files env = .error e) ∧ c = {})
  /-- The scope stays the scope of the process. -/
  stays : ∀ s, g.place = some s → ∀ further, (g.run further).place = some s
  /-- It takes computations as long as it is not shut down. -/
  alive : ∀ s, g.place = some s → g.system.isClosed s = false → g.system.poolAlive s = true
  /-- An inquiry that goes on is answered in the end, or its scope cannot have threads. -/
  answers : ∀ i < g.inquiries.length, ∀ further : List (Step V), 4 ≤ further.countP (goesOn i) →
    (∃ s, (g.run further).inquiries[i]? = some (.answered (.ok s))) ∨
      (g.run further).inquiries[i]? = some .collapsed
  /-- So is one that is made now. -/
  asks : ∀ further : List (Step V), 4 ≤ further.countP (goesOn g.inquiries.length) →
    (∃ s, ((g.step .ask).run further).inquiries[g.inquiries.length]? = some (.answered (.ok s))) ∨
      ((g.step .ask).run further).inquiries[g.inquiries.length]? = some .collapsed
  /-- An inquiry ends in a panic only for the name of the threads, which holds a null character. -/
  collapses : ∀ (i : Nat) (files : Files) (env : Environment), g.inquiries[i]? ≠ some .collapsed →
    (g.advance i files env).inquiries[i]? = some .collapsed →
      ∃ c, g.inquiries[i]? = some (.loaded c) ∧ c.validate = .ok () ∧
        Settings.null ∈ c.threadName.toList
  /-- Who is answered gets a reference of their own. -/
  handsOut : ∀ (i : Nat) (s : ScopeId) (files : Files) (env : Environment),
    g.inquiries[i]? ≠ some (.answered (.ok s)) →
    (g.advance i files env).inquiries[i]? = some (.answered (.ok s)) →
      (g.advance i files env).system.held.count s = g.system.held.count s + 1
  /-- A scope that is built becomes the one scope, or loses its pool without ever
  having been used. -/
  raced : ∀ (i : Nat) (c : Settings) (s : ScopeId) (w : System V),
    g.inquiries[i]? = some (.loaded c) → g.system.build c = .built s w →
      ∀ files env further, Raced i s ((g.advance i files env).run further)
  /-- Whoever has a reference besides that of the process can shut the scope down, and thereby closes
  it. -/
  shuts : ∀ s, g.place = some s → 1 < g.system.held.count s → ∀ closing,
    (g.step (.act (.beginShutdown s closing))).system.isClosed s = true
  /-- Once the scope was shut down it stays closed, and what is launched on it afterwards is
  refused, at the latest when the launch looks at the scope. -/
  closes : ∀ s, g.place = some s → g.system.isClosed s = true → ∀ further,
    (g.run further).system.isClosed s = true ∧
      ∀ r x', (∀ x, g.system.reservations[r]? = some x → x.launches = 0) →
        (g.run further).system.reservations[r]? = some x' → x'.scope = s → x'.launches ≠ 0 →
          x'.phase = .dropped ∧ x'.Refused ∨
          x'.phase = .launching ∧ x'.position = 0 ∧ x'.outcomes = [] ∧
            ∃ y, ((g.run further).system.act (.testClosed r)).reservations[r]? = some y ∧
              y.phase = .dropped ∧ y.Refused

/-- Whoever keeps the law has one scope. -/
theorem Lawful.oneScope (h : g.Lawful) : OneScope g where
  agrees i s hi := by
    obtain ⟨t, ⟨⟩, hplace⟩ := h.answered i _ hi
    exact hplace
  noFailure i f hi := by
    obtain ⟨t, ⟨⟩, -⟩ := h.answered i _ hi
  configures i files env hi := by
    refine ⟨globalSettings files env, ?_, validate_globalSettings files env,
      globalSettings_cases ..⟩
    rw [Global.advance, hi]
    exact getElem?_update hi _
  stays s hplace := h.place_run hplace
  alive s := h.poolAlive
  answers i hi further := h.answered_of_four_le hi
  asks further := by
    refine (h.step .ask).answered_of_four_le ?_
    rw [Global.step, Global.ask, List.length_append]
    exact Nat.lt_succ_self _
  collapses i files env hbefore := by
    refine h.advance_cases (P := fun g' => g'.inquiries[i]? = some .collapsed → _)
      (fun hafter => absurd hafter hbefore) (fun q g' hi hg hafter => ?_) files env
    obtain ⟨c, rfl, hpool⟩ := hg.create?_eq_none hi (fun hq => hbefore (hq ▸ hi)) hafter
    have hvalid := h.loaded i c hi
    refine ⟨c, hi, hvalid, ?_⟩
    by_contra hnull
    exact (Pool.create?_eq_none_iff c).mp hpool ((Settings.makeable_iff_of_validate hvalid).mpr hnull)
  handsOut i s files env hbefore := by
    refine h.advance_cases (P := fun g' => g'.inquiries[i]? = some (.answered (.ok s)) →
        g'.system.held.count s = g.system.held.count s + 1)
      (fun hafter => absurd hafter hbefore) (fun q g' hi hg hafter => ?_) files env
    exact hg.count_held h hi (fun hq => hbefore (hq ▸ hi)) hafter
  raced i c s w hi hbuild files env further := by
    -- The scope is built now; what becomes of it shows in the further run.
    have hbuilt : (g.advance i files env).inquiries[i]? = some (.built s) := by
      rw [Global.advance, hi]
      show (g.build i c).inquiries[i]? = some (.built s)
      rw [Global.build, hbuild]
      exact getElem?_update (g := { g with system := w }) hi _
    have hafter := h.step (.advance i files env)
    exact hafter.raced_run (.waiting hbuilt (hafter.built i s hbuilt).1) further
  shuts s hplace hcount closing := h.isClosed_beginShutdown hplace hcount closing
  closes s hplace hclosed further := by
    obtain ⟨actions, hactions⟩ := h.exists_run
    obtain ⟨after, hafter⟩ := h.exists_actions_run further
    rw [hafter]
    rw [hactions] at hclosed ⊢
    exact ⟨System.isClosed_run hclosed after, fun r x' => System.refused_run hclosed⟩

/-- The process has one scope. However inquiries for it are mixed with each other and with
everything else, and whatever configuration each of them finds, all get the same one, and what was
built in vain is gone. -/
theorem oneScope_run (steps : List (Step V)) : OneScope (run ({} : Global V) steps) :=
  (lawful_run steps).oneScope

/-- Two inquiries build a scope each, and the second one offers its scope first. -/
example :
    let files : Files := fun _ => .absent
    let go (i : Nat) : Step Nat := .advance i files fun _ => none
    let g := run {} [.ask, .ask, go 0, go 1, go 0, go 1, go 0, go 1, go 1, go 0]
    g.place = some 1 ∧ g.system.held = [1, 1, 1] ∧
      g.system.pools.map Pool.stops = [[.background], []] := by
  decide

end Global

end Deferral
