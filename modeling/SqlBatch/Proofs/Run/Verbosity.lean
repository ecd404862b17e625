import SqlBatch.Proofs.Run.Beside
import SqlBatch.Proofs.Run.Modes

/-! Verbosity. Of two runs that differ in their verbosity alone, both do the same and come to the
same end. The one of the lower verbosity leaves out some of the lines of progress of the other, and
of an announcement perhaps the text; all else it tells, and in the same order. So a failure is told
at every verbosity. -/

namespace SqlBatch

theorem Verbosity.le_trans {u v w : Verbosity} (h : u ≤ v) (h' : v ≤ w) : u ≤ w := Nat.le_trans h h'

def Policy.withVerbosity (p : Policy) (v : Verbosity) : Policy := { p with verbosity := v }

theorem Policy.wants_withVerbosity (p : Policy) (u v : Verbosity) :
    (p.withVerbosity v).wants u = decide (u ≤ v) := rfl

theorem Policy.actsAs_withVerbosity (p : Policy) (v w : Verbosity) :
    (p.withVerbosity v).ActsAs (p.withVerbosity w) := ⟨rfl, rfl, rfl⟩

namespace Run

def Event.isInfo : Event → Bool
  | .log n => n.level == .info
  | _ => false

/-- The announcement of a statement without its text, and any other event as it is. -/
def Event.withoutText : Event → Event
  | .log (.executing file index _) => .log (.executing file index none)
  | e => e

theorem Event.isInfo_withoutText (e : Event) : e.withoutText.isInfo = e.isInfo := by
  unfold withoutText
  split <;> rfl

def progressLines (events : List Event) : List Event :=
  (events.filter Event.isInfo).map Event.withoutText

theorem progressLines_eq (events : List Event) :
    progressLines events = (events.map Event.withoutText).filter Event.isInfo := by
  rw [progressLines, List.filter_map]
  congr 1
  exact List.filter_congr fun e _ => (e.isInfo_withoutText).symm

def Logs (events : List Event) (f : Failure) : Prop :=
  ∃ n, notice? f = some n ∧ n.level = .error ∧ .log n ∈ events

namespace Remark

def enduring : Remark → List Event
  | event e => [e].filter (!·.isInfo)
  | progress .. | announcement .. => []

variable (p : Policy)

theorem filter_events (r : Remark) : (r.events p).filter (!·.isInfo) = r.enduring := by
  cases r with
  | event e => rfl
  | progress u n hn =>
    rw [events]
    split <;> simp [Event.isInfo, hn, enduring]
  | announcement file x =>
    rw [events]
    cases p.verbosity <;> rfl

theorem filter_flatMap_events (remarks : List Remark) :
    (remarks.flatMap (events p)).filter (!·.isInfo) = remarks.flatMap enduring := by
  rw [List.filter_flatMap]
  exact congrArg (remarks.flatMap ·) (funext (filter_events p))

variable {v w : Verbosity}

theorem events_sublist (h : v ≤ w) (r : Remark) :
    ((r.events (p.withVerbosity v)).map Event.withoutText).Sublist
      ((r.events (p.withVerbosity w)).map Event.withoutText) := by
  cases r with
  | event e => exact List.Sublist.refl _
  | progress u n hn =>
    simp only [events, Policy.wants_withVerbosity, decide_eq_true_eq]
    by_cases hu : u ≤ v
    · rw [if_pos hu, if_pos (Verbosity.le_trans hu h)]
    · rw [if_neg hu]
      exact List.nil_sublist _
  | announcement file x =>
    cases v with
    | none | summary => exact List.nil_sublist _
    | statements =>
      cases w with
      | none | summary => exact absurd h (by decide)
      | statements | full => exact List.Sublist.refl _
    | full =>
      cases w with
      | none | summary | statements => exact absurd h (by decide)
      | full => exact List.Sublist.refl _

theorem flatMap_events_sublist (h : v ≤ w) (remarks : List Remark) :
    ((remarks.flatMap (events (p.withVerbosity v))).map Event.withoutText).Sublist
      ((remarks.flatMap (events (p.withVerbosity w))).map Event.withoutText) := by
  induction remarks with
  | nil => exact List.Sublist.refl _
  | cons r rs ih =>
    simp only [List.flatMap_cons, List.map_append]
    exact (events_sublist p h r).append ih

end Remark

namespace Course
variable {σ : Type} {file : String} {a : Side} {remarks : List Remark} {r : Report} {c : Course σ}

theorem Told.logs (h : Told file a remarks r c) {f : Failure} {n : Note} (hn : notice? f = some n)
    (hmem : .event (.log n) ∈ remarks) : Logs c.trace.toList f := by
  refine ⟨n, hn, level_of_notice? hn, ?_⟩
  rw [h.trace]
  exact List.mem_append_right _ (List.mem_flatMap.2 ⟨_, hmem, List.mem_singleton_self _⟩)

theorem Told.logs_error (h : Told file a remarks r c) {f : Failure} (hf : c.result = .error f) :
    Logs c.trace.toList f := by
  have hended : c.ended = some f := by
    unfold Course.result at hf
    split at hf
    · rename_i g hg
      rw [hg, Except.error.inj hf]
    · contradiction
  obtain ⟨n, hn, hmem⟩ := h.ended f hended
  exact h.logs hn hmem

theorem Told.logs_report (h : Told file a remarks r c) {r' : Report} (hr : c.result = .ok r') :
    (∀ x ∈ r'.failures, Logs c.trace.toList (.statement file x.index x.message)) ∧
    ∀ database message, r'.databaseError = some message →
      Logs c.trace.toList (.useDatabase database message) := by
  obtain ⟨-, rfl⟩ := result_eq_ok.1 hr
  rw [h.report]
  refine ⟨fun x hx => h.logs rfl (h.failures x hx), fun database message hm => ?_⟩
  exact ⟨_, rfl, rfl, h.switch message hm⟩

end Course

/-- Verbosity changes nothing but the lines of progress. -/
theorem execute_withVerbosity {σ : Type} (s : Session σ) (p : Policy) {v w : Verbosity} (h : v ≤ w)
    (file : String) (statements : List Statement) (st : σ) :
    let quiet := execute s (p.withVerbosity v) file statements st
    let loud := execute s (p.withVerbosity w) file statements st
    quiet.result = loud.result ∧
    quiet.trace.toList.filter (!·.isInfo) = loud.trace.toList.filter (!·.isInfo) ∧
    (progressLines quiet.trace.toList).Sublist (progressLines loud.trace.toList) ∧
    (quiet.trace.toList.map Event.withoutText).Sublist (loud.trace.toList.map Event.withoutText) ∧
    (∀ r, quiet.result = .ok r →
      (∀ x ∈ r.failures, Logs quiet.trace.toList (.statement file x.index x.message)) ∧
      ∀ database message, r.databaseError = some message →
        Logs quiet.trace.toList (.useDatabase database message)) ∧
    ∀ f, quiet.result = .error f → Logs quiet.trace.toList f := by
  intro quiet loud
  obtain ⟨error, hbeside⟩ := Course.Beside.execute file (p.actsAs_withVerbosity v w) rfl
    s.respects_eq statements (rfl : st = st)
  obtain ⟨remarks, r, hquiet, hloud⟩ := hbeside.told
  have hsublist : (quiet.trace.toList.map Event.withoutText).Sublist
      (loud.trace.toList.map Event.withoutText) := by
    rw [hquiet.trace, hloud.trace]
    exact Remark.flatMap_events_sublist p h remarks
  refine ⟨?_, ?_, ?_, hsublist, fun r' hr => hquiet.logs_report hr, fun f hf => hquiet.logs_error hf⟩
  · have hreport : quiet.report = loud.report := hquiet.report.trans hloud.report.symm
    rw [Course.result, Course.result, hbeside.ended, hreport]
  · rw [hquiet.trace, hloud.trace]
    exact (Remark.filter_flatMap_events _ remarks).trans
      (Remark.filter_flatMap_events _ remarks).symm
  · rw [progressLines_eq, progressLines_eq]
    exact hsublist.filter _

theorem execute_withVerbosity_naps :
    Verbosity.none ≤ Verbosity.full ∧
    let run (v : Verbosity) := execute Session.Virtual.session
      ({ hasty with force := false }.withVerbosity v) "a.sql" naps { backend := .mysql }
    (run .none).result = (run .full).result ∧
    progressLines (run .none).trace.toList = [] ∧
    (progressLines (run .full).trace.toList).length = 9 ∧
    Logs (run .none).trace.toList
      (.statement "a.sql" 7 "Connection error: mock rejected `FAIL`") := by
  have hle : Verbosity.none ≤ Verbosity.full := by decide
  obtain ⟨hresult, -, -, -, -, hlogs⟩ := execute_withVerbosity Session.Virtual.session
    { hasty with force := false } hle "a.sql" naps { backend := .mysql }
  refine ⟨hle, hresult, ?_, ?_, hlogs _ ?_⟩
  · decide +kernel
  · decide +kernel
  · rfl

end Run
end SqlBatch
