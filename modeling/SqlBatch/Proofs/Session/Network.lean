import SqlBatch.Proofs.Session.Clock
import SqlBatch.Session.Network

/-! A network connection is a lawful dispatcher, if its driver gives every call the answer to the
statement that the call has sent. -/

namespace SqlBatch.Session.Network

open Run

/-- What is relied on of a client library. `sent` relates a connection to the statements that were
sent on it. A call that comes back does so with the answer to the statement that was sent last.
Nothing is left behind of a call that was dropped, nor of a request to cancel. -/
structure Driver.Pairs {κ : Type} (driver : Driver κ) (sent : κ → List String → Prop)
    (answer : List String → Except String Unit) : Prop where
  call : ∀ {k sqls} (sql : String), sent k sqls → sent (driver.call k sql) (sqls ++ [sql])
  resolve : ∀ {k sqls result k'}, sent k sqls → driver.resolve k result = some k' →
    result = answer sqls ∧ sent k' sqls
  drop : ∀ {k sqls}, sent k sqls → sent (driver.drop k) sqls
  cancel : ∀ {k sqls} (problem : Option String), sent k sqls → sent (driver.cancel k problem) sqls

variable {κ : Type} {p : Protocol} {driver : Driver κ} {k k' : κ} {d d' : Dispatch} {m : Move}

def Stage.movesLeft : Stage → Nat
  | .queued => 4
  | .calling => 3
  | .returned _ => 2
  | .expired => 1
  | .answered _ | .dropped => 0

/-! ### One move -/

namespace Dispatch

/-- What a move makes of the connection and of its statement. -/
inductive Steps (p : Protocol) (driver : Driver κ) (k : κ) (job : Job) :
    Stage → Move → κ → Stage → Prop
  | takeTurn : Steps p driver k job .queued .takeTurn (driver.call k job.sql) .calling
  | resolve {result : Except String Unit} {k' : κ} (h : driver.resolve k result = some k') :
      Steps p driver k job .calling (.resolve result) k' (.returned result)
  | join (result : Except String Unit) :
      Steps p driver k job (.returned result) .join k (.answered (p.answer result))
  | expire : Steps p driver k job .calling .expire (driver.drop k) .expired
  | overlook (result : Except String Unit) :
      Steps p driver k job (.returned result) .expire k .expired
  | cancel (problem : Option String) (h : p.cancels = true) :
      Steps p driver k job .expired (.giveUp problem) (driver.cancel k problem)
        (.answered (.error (.timeout job.bound)))
  | giveUp (h : p.cancels = false) :
      Steps p driver k job .expired (.giveUp none) k (.answered (.error (.timeout job.bound)))
  | abandon {stage : Stage} (k' : κ) (h : 0 < stage.movesLeft) :
      Steps p driver k job stage .abandon k' .dropped

theorem steps_of_move? (h : d.move? p driver k m = some (k', d')) :
    d'.job = d.job ∧ Steps p driver k d.job d.stage m k' d'.stage := by
  obtain ⟨job, stage⟩ := d
  cases m with
  | takeTurn =>
    cases stage <;> cases h
    exact ⟨rfl, .takeTurn⟩
  | resolve result =>
    cases stage with
    | calling =>
      obtain ⟨k'', hresolve, heq⟩ := Option.map_eq_some_iff.1 h
      cases heq
      exact ⟨rfl, .resolve hresolve⟩
    | queued | returned | expired | answered | dropped => contradiction
  | join =>
    cases stage <;> cases h
    exact ⟨rfl, .join _⟩
  | expire =>
    cases stage <;> cases h
    · exact ⟨rfl, .expire⟩
    · exact ⟨rfl, .overlook _⟩
  | giveUp problem =>
    cases stage with
    | expired =>
      simp only [move?] at h
      split at h
      · rename_i hcancels
        cases h
        exact ⟨rfl, .cancel problem hcancels⟩
      · rename_i hcancels
        split at h
        · rename_i hnone
          obtain rfl := Option.isNone_iff_eq_none.1 hnone
          cases h
          exact ⟨rfl, .giveUp (Bool.eq_false_iff.2 hcancels)⟩
        · contradiction
    | queued | calling | returned | answered | dropped => contradiction
  | abandon =>
    cases stage <;> cases h
    all_goals exact ⟨rfl, .abandon _ (Nat.succ_pos _)⟩

section
variable {job : Job} {stage stage' : Stage} (h : Steps p driver k job stage m k' stage')
include h

theorem Steps.movesLeft_lt : stage'.movesLeft < stage.movesLeft := by
  cases h with
  | abandon k' h => exact h
  | takeTurn | resolve | join | expire | overlook | cancel | giveUp => simp [Stage.movesLeft]

theorem Steps.ticket (hkept : m.signal p ≠ .abandons) :
    (stage.ticket p).Step false job.bound (m.signal p) (stage'.ticket p) := by
  cases h with
  | takeTurn => exact .starts
  | resolve => exact .comes _
  | join result => exact .answers _
  | expire => exact .expires
  | overlook result => exact .overlooks _ _
  | cancel | giveUp => exact .answersLate none
  | abandon => contradiction

theorem Steps.result_eq {sent : κ → List String → Prop}
    {answer : List String → Except String Unit} (hdriver : driver.Pairs sent answer)
    {sqls : List String} (hsent : sent k sqls) {result : Except String Unit}
    (hm : m = .resolve result) : result = answer sqls := by
  cases h with
  | resolve hresolve =>
    cases hm
    exact (hdriver.resolve hsent hresolve).1
  | takeTurn | join | expire | overlook | cancel | giveUp | abandon => contradiction

theorem Steps.sent {sent : κ → List String → Prop} {answer : List String → Except String Unit}
    (hdriver : driver.Pairs sent answer) {sqls : List String} (hsent : sent k sqls)
    (hstarts : m.signal p ≠ .starts) (hkept : m.signal p ≠ .abandons) : sent k' sqls := by
  cases h with
  | takeTurn | abandon => contradiction
  | resolve hresolve => exact (hdriver.resolve hsent hresolve).2
  | join | overlook | giveUp => exact hsent
  | expire => exact hdriver.drop hsent
  | cancel problem => exact hdriver.cancel problem hsent

end
end Dispatch

/-! ### All statements -/

section
variable {st st' : State κ} {i : Nat}

theorem exists_steps (h : move? p driver st i m = some st') :
    ∃ d d', st.dispatches[i]? = some d ∧ d'.job = d.job ∧
      Dispatch.Steps p driver st.connection d.job d.stage m st'.connection d'.stage ∧
      m.isFree st.dispatches = true ∧ st'.dispatches = st.dispatches.set i d' := by
  unfold move? at h
  split at h
  · rename_i d hd
    split at h
    · rename_i hfree
      obtain ⟨⟨k', d'⟩, hmove, rfl⟩ := Option.map_eq_some_iff.1 h
      obtain ⟨hjob, hsteps⟩ := Dispatch.steps_of_move? hmove
      exact ⟨d, d', hd, hjob, hsteps, hfree, rfl⟩
    · contradiction
  · contradiction

/-- The first `n` statements, and no others, were sent on the connection. -/
structure Sound (sent : κ → List String → Prop) (jobs : List Job) (n : Nat) (st : State κ) :
    Prop where
  sent : sent st.connection ((jobs.take n).map Job.sql)
  jobs : st.dispatches.map Dispatch.job = jobs

def movesLeft (st : State κ) : Nat := (st.dispatches.map fun d => d.stage.movesLeft).sum

variable {jobs : List Job} {sent : κ → List String → Prop}
  {answer : List String → Except String Unit}

theorem hasTurn_ticket (d : Dispatch) : (d.stage.ticket p).hasTurn = d.hasTurn := by
  obtain ⟨job, stage⟩ := d
  cases stage <;> rfl

theorem isFree_takeTurn : Move.takeTurn.isFree st.dispatches = true ↔
    ∀ x ∈ (dispatcher p driver k).tickets st, x.hasTurn = false := by
  simp [Move.isFree, dispatcher, hasTurn_ticket]

theorem exists_dispatch {x : Ticket} (h : ((dispatcher p driver k).tickets st)[i]? = some x) :
    ∃ d, st.dispatches[i]? = some d ∧ d.stage.ticket p = x := by
  simpa [dispatcher] using h

theorem isSome_move? (hd : st.dispatches[i]? = some d) (hfree : m.isFree st.dispatches = true)
    (h : (d.move? p driver st.connection m).isSome = true) :
    (move? p driver st i m).isSome = true := by
  simpa [move?, hd, hfree] using h

theorem Sound.starts (hdriver : driver.Pairs sent answer) {n : Nat} (h : Sound sent jobs n st)
    (hmove : move? p driver st n m = some st') (hstarts : m.signal p = .starts) :
    Sound sent jobs (n + 1) st' := by
  obtain ⟨d, d', hd, hjob, hsteps, -, hset⟩ := exists_steps hmove
  have hjobs : jobs[n]? = some d.job := by
    rw [← h.jobs, List.getElem?_map, hd]
    rfl
  constructor
  · have hcalled := hdriver.call d.job.sql h.sent
    rw [List.take_add_one, hjobs, List.map_append]
    generalize d.stage = stage at hsteps
    generalize d'.stage = stage' at hsteps
    generalize st'.connection = k' at hsteps ⊢
    cases hsteps with
    | takeTurn => exact hcalled
    | resolve | join | expire | overlook | cancel | giveUp | abandon => contradiction
  · rw [hset, map_set_of_eq hd hjob, h.jobs]

end

/-! ### A statement that is alone -/

section
variable {job : Job}

theorem run_some {result : Except String Unit}
    (h : driver.resolve (driver.call k job.sql) result = some k') :
    run p driver k job (some result) = ([], p.answer result, k') := by
  simp [run, courseOf, moves?, move?, handedOver, Dispatch.move?, Move.isFree, Dispatch.hasTurn, h,
    Move.note?]

theorem run_none : run p driver k job none =
    ([], .error (.timeout job.bound),
      if p.cancels then driver.cancel (driver.drop (driver.call k job.sql)) none
      else driver.drop (driver.call k job.sql)) := by
  cases hcancels : p.cancels <;>
    simp [run, courseOf, moves?, move?, handedOver, Dispatch.move?, Move.isFree, Dispatch.hasTurn,
      hcancels, Move.note?]

end
end SqlBatch.Session.Network
