import SqlBatch.Proofs.List
import SqlBatch.Session.Clock

/-! Statements that take turns, on a clock. A dispatcher is lawful if each of its moves takes the
ticket of its statement one step further, and if a statement starts only when nobody has the turn.
Of its statements those that have started are a front of the queue, all but the last of them are
answered, and the watch of each fits the way in which it stands. So a statement is answered with its
own answer if that comes in time, counted from its own start, and none is left without an answer. -/

namespace SqlBatch.Session

open Run

/-! ### Tickets -/

namespace Ticket

def lateAnswer (isTolerant : Bool) (bound : Duration) (came? : Option Outcome) : Outcome :=
  if isTolerant && came?.any (·.isOk) then .ok () else .error (.timeout bound)

/-- What the moves of one statement can make of the way it stands. A tolerant session answers a
statement that has succeeded behind its bound as if it had succeeded in time. -/
inductive Step (isTolerant : Bool) (bound : Duration) : Signal → Ticket → Ticket → Prop
  | starts : Step isTolerant bound .starts .queued .waiting
  | comes (o : Outcome) : Step isTolerant bound (.comes o) .waiting (.ready o)
  | comesLate (o : Outcome) : Step isTolerant bound (.comes o) (.late none) (.late (some o))
  | expires : Step isTolerant bound .expires .waiting (.late none)
  | overlooks (o : Outcome) (came? : Option Outcome) :
      Step isTolerant bound .expires (.ready o) (.late came?)
  | answers (o : Outcome) : Step isTolerant bound .passes (.ready o) (.answered o)
  | answersLate (came? : Option Outcome) :
      Step isTolerant bound .passes (.late came?) (.answered (lateAnswer isTolerant bound came?))
  | passes {x : Ticket} (hturn : x.hasTurn = true) : Step isTolerant bound .passes x x

variable {isTolerant : Bool} {bound : Duration} {signal : Signal} {x x' : Ticket}

theorem Step.hasTurn (h : Step isTolerant bound signal x x') (hsignal : signal ≠ .starts) :
    x.hasTurn = true := by
  cases h with
  | starts => contradiction
  | passes hturn => exact hturn
  | comes | comesLate | expires | overlooks | answers | answersLate => rfl

theorem Step.ne_queued (h : Step isTolerant bound signal x x') : x' ≠ .queued := by
  cases h with
  | passes hturn =>
    rintro rfl
    contradiction
  | starts | comes | comesLate | expires | overlooks | answers | answersLate =>
    exact Ticket.noConfusion

end Ticket

/-! ### Watches -/

namespace Watch

def verdict (w : Watch) (isTolerant : Bool) (own : Outcome) : Outcome :=
  if w.isInTime then own else Ticket.lateAnswer isTolerant w.bound (w.came?.map Prod.snd)

/-- The times on a watch are those of a statement that stands so, and what has come is its own. -/
def Fits (w : Watch) (isTolerant : Bool) (own : Outcome) : Ticket → Prop
  | .queued => w.started? = none ∧ w.came? = none ∧ w.expired = false
  | .waiting => w.isTicking = true
  | .ready o => w.started?.isSome = true ∧ w.isInTime = true ∧ w.came?.map Prod.snd = some o ∧
      o = own
  | .late came? => w.started?.isSome = true ∧ w.isInTime = false ∧ w.came?.map Prod.snd = came? ∧
      w.expired = true
  | .answered o => w.started?.isSome = true ∧ w.isTicking = false ∧
      o = w.verdict isTolerant own ∧ (w.isInTime = true → w.came?.map Prod.snd = some own)
  | .dropped => False

variable {w : Watch} {isTolerant : Bool} {own : Outcome} {signal : Signal} {x x' : Ticket} {t : Nat}

theorem isTicking_iff : w.isTicking = true ↔
    w.started?.isSome = true ∧ w.came? = none ∧ w.expired = false := by
  simp [isTicking, and_assoc]

theorem not_isTicking_of_isInTime (h : w.isInTime = true) : w.isTicking = false := by
  obtain ⟨came, hcame, -⟩ := (Option.any_eq_true _ _).1 h
  simp [isTicking, hcame]

@[simp] theorem isInTime_see_comes (o : Outcome) :
    (w.see t (.comes o)).isInTime = decide (t ≤ w.deadline) := rfl

@[simp] theorem bound_see : (w.see t signal).bound = w.bound := by
  cases signal <;> rfl

theorem le_deadline_see (h : w.isTicking = true → t ≤ w.deadline)
    (hticking : (w.see t signal).isTicking = true) : t ≤ (w.see t signal).deadline := by
  cases signal with
  | starts => exact Nat.le_add_right ..
  | comes | expires => simp [Watch.see, isTicking] at hticking
  | abandons | passes => exact h hticking

theorem Fits.isTicking_iff (h : w.Fits isTolerant own x) : w.isTicking = true ↔ x = .waiting := by
  cases x with
  | waiting => simpa [Fits] using h
  | answered o => simp [h.2.1]
  | dropped => exact h.elim
  | ready o => simp [not_isTicking_of_isInTime h.2.1]
  | queued => simp [isTicking, h.1]
  | late came? => simp [isTicking, h.2.2.2]

theorem Fits.see (h : w.Fits isTolerant own x) (hstep : x.Step isTolerant w.bound signal x')
    (hallows : w.allows t signal = true) (hontime : w.isTicking = true → t ≤ w.deadline)
    (hown : x = .waiting → ∀ o, signal = .comes o → o = own) :
    (w.see t signal).Fits isTolerant own x' := by
  cases hstep with
  | starts => simp_all [Fits, Watch.see, isTicking]
  | comes o =>
    obtain ⟨hstarted, -, -⟩ := Watch.isTicking_iff.1 h
    have ht : t ≤ w.deadline := hontime h
    exact ⟨hstarted, by simpa using ht, rfl, hown rfl o rfl⟩
  | comesLate o =>
    obtain ⟨hstarted, -, -, hexpired⟩ := h
    have ht : w.deadline < t := by simpa [allows, hexpired] using hallows
    exact ⟨hstarted, by simpa using ht, rfl, hexpired⟩
  | expires =>
    obtain ⟨hstarted, hcame, -⟩ := Watch.isTicking_iff.1 h
    exact ⟨hstarted, by simp [isInTime, Watch.see, hcame], by simp [Watch.see, hcame], rfl⟩
  | overlooks o came? =>
    -- a bound is not found to have passed once the answer is there
    have hticking : w.isTicking = true := (Bool.and_eq_true_iff.1 hallows).1
    have hready := h.isTicking_iff.1 hticking
    contradiction
  | answers o =>
    obtain ⟨hstarted, hintime, hcame, rfl⟩ := h
    exact ⟨hstarted, not_isTicking_of_isInTime hintime, by simp [verdict, Watch.see, hintime],
      fun _ => hcame⟩
  | answersLate came? =>
    obtain ⟨hstarted, hlate, rfl, hexpired⟩ := h
    refine ⟨hstarted, by simp [isTicking, Watch.see, hexpired], ?_, ?_⟩
    · simp [verdict, Watch.see, hlate]
    · simp [Watch.see, hlate]
  | passes hturn => exact h

end Watch

/-! ### Clocks -/

namespace Clock
variable {c c' : Clock} {t i : Nat} {signal : Signal}

theorem exists_of_tick? (h : c.tick? t i signal = some c') :
    ∃ w, c.watches[i]? = some w ∧ c.now ≤ t ∧
      (∀ w ∈ c.watches, w.isTicking = true → t ≤ w.deadline) ∧
      (signal = .starts → i = c.order.length) ∧ w.allows t signal = true ∧
      c' = ⟨t, c.orderBehind i signal, c.watches.set i (w.see t signal)⟩ := by
  unfold tick? at h
  split at h
  · rename_i w hw
    split at h
    · rename_i hallowed
      simp only [Bool.and_eq_true, isOnTime, decide_eq_true_eq, List.all_eq_true, Bool.or_eq_true,
        Bool.not_eq_true'] at hallowed
      obtain ⟨⟨⟨hnow, hontime⟩, horder⟩, hallows⟩ := hallowed
      refine ⟨w, hw, hnow, fun w hw hticking => ?_, ?_, hallows, (Option.some.inj h).symm⟩
      · exact (hontime w hw).resolve_left (by simp [hticking])
      · rintro rfl
        simpa [isInOrder] using horder
    · contradiction
  · contradiction

theorem isSome_tick? {w : Watch} (hw : c.watches[i]? = some w) (hnow : c.now ≤ t)
    (hontime : ∀ w ∈ c.watches, w.isTicking = true → t ≤ w.deadline)
    (horder : signal = .starts → i = c.order.length) (hallows : w.allows t signal = true) :
    (c.tick? t i signal).isSome = true := by
  have hall : c.isOnTime t = true := by
    simp only [isOnTime, Bool.and_eq_true, decide_eq_true_eq, List.all_eq_true, Bool.or_eq_true,
      Bool.not_eq_true']
    refine ⟨hnow, fun w hw => ?_⟩
    cases hticking : w.isTicking with
    | false => exact .inl rfl
    | true => exact .inr (hontime w hw hticking)
  have hinorder : c.isInOrder i signal = true := by
    cases signal with
    | starts => simpa [isInOrder] using horder rfl
    | comes | expires | abandons | passes => rfl
  simp [tick?, hw, hall, hinorder, hallows]

end Clock

/-! ### Dispatchers -/

/-- Behind `n` statements that have started the states of the session are `sound n`. -/
structure Dispatcher.Lawful {σ μ : Type} (D : Dispatcher σ μ) (jobs : List Job)
    (own : Nat → Outcome) (isTolerant : Bool) (sound : Nat → σ → Prop) (left : σ → Nat) :
    Prop where
  start : sound 0 (D.handedOver jobs)
  tickets_start : D.tickets (D.handedOver jobs) = jobs.map fun _ => .queued
  left_start : left (D.handedOver jobs) ≤ 8 * jobs.length
  left_lt : ∀ {st i m st'}, D.move? st i m = some st' → left st' < left st
  starts : ∀ {n st m st'}, sound n st → D.move? st n m = some st' → D.signal m = .starts →
    sound (n + 1) st'
  goes : ∀ {n st i m st'}, sound n st → D.move? st i m = some st' → D.signal m ≠ .starts →
    D.signal m ≠ .abandons → sound n st'
  step : ∀ {n st i m st' job}, sound n st → D.move? st i m = some st' → jobs[i]? = some job →
    D.signal m ≠ .abandons → ∃ x x', (D.tickets st)[i]? = some x ∧
      D.tickets st' = (D.tickets st).set i x' ∧ x.Step isTolerant job.bound (D.signal m) x'
  alone : ∀ {st i m st'}, D.move? st i m = some st' → D.signal m = .starts →
    ∀ x ∈ D.tickets st, x.hasTurn = false
  own : ∀ {n st i m st' o}, sound n st → D.move? st i m = some st' →
    (D.tickets st)[i]? = some .waiting → D.signal m = .comes o → i + 1 = n → o = own i
  begins : ∀ {n st i}, sound n st → (D.tickets st)[i]? = some .queued →
    (∀ x ∈ D.tickets st, x.hasTurn = false) →
    ∃ m, D.signal m = .starts ∧ (D.move? st i m).isSome = true
  goesOn : ∀ {n st i x}, sound n st → (D.tickets st)[i]? = some x → x.hasTurn = true →
    (∀ j y, j ≠ i → (D.tickets st)[j]? = some y → y.hasTurn = false) →
    ∃ m, (D.move? st i m).isSome = true ∧
      match x with
      | .waiting => D.signal m = .expires
      | .ready _ => D.signal m = .passes
      | _ => D.signal m = .passes ∨ ∃ o, D.signal m = .comes o

structure OnTime (jobs : List Job) (own : Nat → Outcome) (isTolerant : Bool)
    (tickets : List Ticket) (c : Clock) : Prop where
  order : c.order = List.range c.order.length
  length : tickets.length = jobs.length
  bounds : c.watches.map Watch.bound = jobs.map Job.bound
  fits : ∀ {i : Nat} {x : Ticket} {w : Watch}, tickets[i]? = some x → c.watches[i]? = some w →
    w.Fits isTolerant (own i) x
  queued : ∀ {i x}, tickets[i]? = some x → (x = .queued ↔ c.order.length ≤ i)
  turn : ∀ {i x}, tickets[i]? = some x → x.hasTurn = true → i + 1 = c.order.length
  ticking : ∀ w ∈ c.watches, w.isTicking = true → c.now ≤ w.deadline

section
variable {σ μ : Type} {D : Dispatcher σ μ} {jobs : List Job} {own : Nat → Outcome}
  {isTolerant : Bool} {sound : Nat → σ → Prop} {left : σ → Nat} {st st' : σ} {c c' : Clock}

theorem OnTime.start (hD : D.Lawful jobs own isTolerant sound left) :
    OnTime jobs own isTolerant (D.tickets (D.handedOver jobs)) (.start jobs) where
  order := rfl
  length := by simp [hD.tickets_start]
  bounds := by simp [Clock.start]
  fits := by
    intro i x w hx hw
    rw [hD.tickets_start] at hx
    simp only [Clock.start, List.getElem?_map, Option.map_eq_some_iff] at hx hw
    obtain ⟨-, -, rfl⟩ := hx
    obtain ⟨job, -, rfl⟩ := hw
    exact ⟨rfl, rfl, rfl⟩
  queued := by
    intro i x hx
    rw [hD.tickets_start] at hx
    simp only [List.getElem?_map, Option.map_eq_some_iff] at hx
    obtain ⟨-, -, rfl⟩ := hx
    simp [Clock.start]
  turn := by
    intro i x hx hturn
    rw [hD.tickets_start] at hx
    simp only [List.getElem?_map, Option.map_eq_some_iff] at hx
    obtain ⟨-, -, rfl⟩ := hx
    contradiction
  ticking := by
    intro w hw hticking
    obtain ⟨job, -, rfl⟩ := List.mem_map.1 hw
    contradiction

theorem exists_of_step? {m : Timed μ} (h : D.step? (st, c) m = some (st', c')) :
    c.tick? m.time m.place (D.signal m.move) = some c' ∧
      D.move? st m.place m.move = some st' := by
  obtain ⟨clock, htick, hrest⟩ := Option.bind_eq_some_iff.1 h
  obtain ⟨after, hmove, heq⟩ := Option.bind_eq_some_iff.1 hrest
  cases heq
  exact ⟨htick, hmove⟩

theorem OnTime.exists_job (h : OnTime jobs own isTolerant (D.tickets st) c) {i : Nat} {w : Watch}
    (hw : c.watches[i]? = some w) : ∃ job, jobs[i]? = some job ∧ job.bound = w.bound := by
  have hbound := congrArg (·[i]?) h.bounds
  simpa [hw] using hbound.symm

structure Advances (c : Clock) (tickets : List Ticket) (i : Nat) (signal : Signal) : Prop where
  order : c.orderBehind i signal = List.range (c.orderBehind i signal).length
  last : i + 1 = (c.orderBehind i signal).length
  others : ∀ {j : Nat} {y : Ticket}, j ≠ i → tickets[j]? = some y →
    (y = .queued ↔ (c.orderBehind i signal).length ≤ j) ∧
    (y.hasTurn = true → j + 1 = (c.orderBehind i signal).length)

theorem OnTime.advances_of_starts {tickets : List Ticket} (h : OnTime jobs own isTolerant tickets c)
    (halone : ∀ x ∈ tickets, x.hasTurn = false) :
    Advances c tickets c.order.length .starts := by
  have hlength : (c.orderBehind c.order.length .starts).length = c.order.length + 1 := by
    simp [Clock.orderBehind]
  refine ⟨?_, hlength.symm, fun {j y} hj hy => ⟨?_, fun hturn => ?_⟩⟩
  · rw [hlength, List.range_succ, ← h.order]
    rfl
  · rw [h.queued hy, hlength]
    omega
  · rw [halone y (List.mem_of_getElem? hy)] at hturn
    contradiction

theorem OnTime.advances {tickets : List Ticket} (h : OnTime jobs own isTolerant tickets c)
    {i : Nat} {x : Ticket} {signal : Signal} (hx : tickets[i]? = some x)
    (hturn : x.hasTurn = true) (hsignal : signal ≠ .starts) : Advances c tickets i signal := by
  have hsame : c.orderBehind i signal = c.order := by
    cases signal with
    | starts => contradiction
    | comes | expires | abandons | passes => rfl
  refine ⟨?_, ?_, fun {j y} hj hy => ?_⟩
  · rw [hsame]
    exact h.order
  · rw [hsame]
    exact h.turn hx hturn
  · rw [hsame]
    exact ⟨h.queued hy, h.turn hy⟩

theorem OnTime.set {tickets : List Ticket} (h : OnTime jobs own isTolerant tickets c) {t i : Nat}
    {signal : Signal} {x x' : Ticket} {w : Watch} (hx : tickets[i]? = some x)
    (hw : c.watches[i]? = some w) (hontime : ∀ w ∈ c.watches, w.isTicking = true → t ≤ w.deadline)
    (hadvances : Advances c tickets i signal) (hx' : x' ≠ .queued)
    (hfits : (w.see t signal).Fits isTolerant (own i) x') :
    OnTime jobs own isTolerant (tickets.set i x')
      ⟨t, c.orderBehind i signal, c.watches.set i (w.see t signal)⟩ := by
  obtain ⟨hlt, -⟩ := List.getElem?_eq_some_iff.1 hx
  obtain ⟨hltw, -⟩ := List.getElem?_eq_some_iff.1 hw
  have hlast := hadvances.last
  constructor
  case order => exact hadvances.order
  case length => rw [List.length_set, h.length]
  case bounds => rw [map_set_of_eq hw w.bound_see, h.bounds]
  case fits =>
    intro j y v hy hv
    by_cases hj : i = j
    · subst hj
      rw [List.getElem?_set_self hlt] at hy
      rw [List.getElem?_set_self hltw] at hv
      cases hy
      cases hv
      exact hfits
    · rw [List.getElem?_set_ne hj] at hy hv
      exact h.fits hy hv
  case queued =>
    intro j y hy
    by_cases hj : i = j
    · subst hj
      rw [List.getElem?_set_self hlt] at hy
      cases hy
      refine iff_of_false hx' (Nat.not_le.2 ?_)
      exact hlast ▸ Nat.lt_succ_self i
    · rw [List.getElem?_set_ne hj] at hy
      exact (hadvances.others (Ne.symm hj) hy).1
  case turn =>
    intro j y hy hturn
    by_cases hj : i = j
    · exact hj ▸ hlast
    · rw [List.getElem?_set_ne hj] at hy
      exact (hadvances.others (Ne.symm hj) hy).2 hturn
  case ticking =>
    intro v hv hticking
    rcases List.mem_or_eq_of_mem_set hv with hv | rfl
    · exact hontime v hv hticking
    · exact Watch.le_deadline_see (hontime w (List.mem_of_getElem? hw)) hticking

theorem OnTime.step (hD : D.Lawful jobs own isTolerant sound left)
    (hsound : sound c.order.length st) (h : OnTime jobs own isTolerant (D.tickets st) c)
    {m : Timed μ} (hstep : D.step? (st, c) m = some (st', c')) :
    sound c'.order.length st' ∧ OnTime jobs own isTolerant (D.tickets st') c' := by
  obtain ⟨t, i, m⟩ := m
  obtain ⟨htick, hmove⟩ := exists_of_step? hstep
  obtain ⟨w, hw, -, hontime, horder, hallows, rfl⟩ := Clock.exists_of_tick? htick
  have hkept : D.signal m ≠ .abandons := by
    intro habandons
    rw [habandons] at hallows
    contradiction
  obtain ⟨job, hjob, hbound⟩ := h.exists_job hw
  obtain ⟨x, x', hx, htickets, hticket⟩ := hD.step hsound hmove hjob hkept
  have hfits : (w.see t (D.signal m)).Fits isTolerant (own i) x' := by
    refine (h.fits hx hw).see (hbound ▸ hticket) hallows
      (hontime w (List.mem_of_getElem? hw)) ?_
    rintro rfl o ho
    exact hD.own hsound hmove hx ho (h.turn hx rfl)
  rw [htickets]
  by_cases hstarts : D.signal m = .starts
  · obtain rfl := horder hstarts
    have hadvances := h.advances_of_starts (hD.alone hmove hstarts)
    rw [← hstarts] at hadvances
    refine ⟨?_, h.set hx hw hontime hadvances hticket.ne_queued hfits⟩
    rw [← hadvances.last]
    exact hD.starts hsound hmove hstarts
  · have hturn := hticket.hasTurn hstarts
    have hadvances := h.advances hx hturn hstarts
    refine ⟨?_, h.set hx hw hontime hadvances hticket.ne_queued hfits⟩
    rw [← hadvances.last, h.turn hx hturn]
    exact hD.goes hsound hmove hstarts hkept

theorem OnTime.run (hD : D.Lawful jobs own isTolerant sound left) {trace : List (Timed μ)}
    (h : D.run? jobs trace = some (st, c)) :
    sound c.order.length st ∧ OnTime jobs own isTolerant (D.tickets st) c := by
  -- from any state that fits its clock, so that the rest of the run starts from one
  have hrest : ∀ {x : σ × Clock} {trace : List (Timed μ)}, sound x.2.order.length x.1 →
      OnTime jobs own isTolerant (D.tickets x.1) x.2 → trace.foldlM D.step? x = some (st, c) →
      sound c.order.length st ∧ OnTime jobs own isTolerant (D.tickets st) c := by
    intro x trace hsound hontime htrace
    induction trace generalizing x with
    | nil =>
      cases htrace
      exact ⟨hsound, hontime⟩
    | cons m trace ih =>
      obtain ⟨between, hstep, htrace⟩ := Option.bind_eq_some_iff.1 htrace
      obtain ⟨hsound, hontime⟩ := OnTime.step hD hsound hontime hstep
      exact ih hsound hontime htrace
  exact hrest (x := (D.handedOver jobs, .start jobs)) hD.start (.start hD) h

theorem length_add_left_le (hD : D.Lawful jobs own isTolerant sound left)
    {trace : List (Timed μ)} {x y : σ × Clock} (h : trace.foldlM D.step? x = some y) :
    trace.length + left y.1 ≤ left x.1 := by
  induction trace generalizing x with
  | nil =>
    cases h
    simp
  | cons m trace ih =>
    obtain ⟨⟨between, clock⟩, hstep, htrace⟩ := Option.bind_eq_some_iff.1 h
    obtain ⟨-, hmove⟩ := exists_of_step? hstep
    have hlt := hD.left_lt hmove
    have hle : trace.length + left y.1 ≤ left between := ih htrace
    rw [List.length_cons]
    omega

/-! ### Runs that are over -/

theorem OnTime.alone {tickets : List Ticket} (h : OnTime jobs own isTolerant tickets c) {i : Nat}
    {x : Ticket} (hx : tickets[i]? = some x) (hturn : x.hasTurn = true) (j : Nat) (y : Ticket)
    (hj : j ≠ i) (hy : tickets[j]? = some y) : y.hasTurn = false := by
  rw [Bool.eq_false_iff]
  intro hyturn
  have hlast := h.turn hx hturn
  have hlast' := h.turn hy hyturn
  omega

theorem OnTime.length_watches {tickets : List Ticket} (h : OnTime jobs own isTolerant tickets c) :
    c.watches.length = jobs.length := by
  have hlength := congrArg List.length h.bounds
  rwa [List.length_map, List.length_map] at hlength

theorem OnTime.exists_watch {tickets : List Ticket} (h : OnTime jobs own isTolerant tickets c)
    {i : Nat} {x : Ticket} (hx : tickets[i]? = some x) : ∃ w, c.watches[i]? = some w := by
  obtain ⟨hlt, -⟩ := List.getElem?_eq_some_iff.1 hx
  rw [h.length, ← h.length_watches] at hlt
  exact ⟨_, List.getElem?_eq_getElem hlt⟩

/-- While a statement has the turn no bound but its own can be waited for. -/
theorem OnTime.eq_of_isTicking {tickets : List Ticket} (h : OnTime jobs own isTolerant tickets c)
    {i : Nat} {x : Ticket} {w : Watch} (hx : tickets[i]? = some x) (hturn : x.hasTurn = true)
    (hw : c.watches[i]? = some w) {v : Watch} (hv : v ∈ c.watches) (hticking : v.isTicking = true) :
    x = .waiting ∧ v = w := by
  obtain ⟨j, hj⟩ := List.getElem?_of_mem hv
  obtain ⟨hlt, -⟩ := List.getElem?_eq_some_iff.1 hj
  rw [h.length_watches, ← h.length] at hlt
  have hy := List.getElem?_eq_getElem hlt
  have hwaiting := (h.fits hy hj).isTicking_iff.1 hticking
  by_cases hji : j = i
  · subst hji
    cases hx.symm.trans hy
    exact ⟨hwaiting, Option.some.inj (hj.symm.trans hw)⟩
  · have hnot := h.alone hx hturn j _ hji hy
    rw [hwaiting] at hnot
    contradiction

theorem isSome_step? {m : Timed μ}
    (htick : (c.tick? m.time m.place (D.signal m.move)).isSome = true)
    (hmove : (D.move? st m.place m.move).isSome = true) : (D.step? (st, c) m).isSome = true := by
  obtain ⟨c', hc'⟩ := Option.isSome_iff_exists.1 htick
  obtain ⟨st', hst'⟩ := Option.isSome_iff_exists.1 hmove
  simp [Dispatcher.step?, hc', hst']

theorem OnTime.exists_step_of_hasTurn (hD : D.Lawful jobs own isTolerant sound left)
    (hsound : sound c.order.length st) (h : OnTime jobs own isTolerant (D.tickets st) c) {i : Nat}
    {x : Ticket} (hx : (D.tickets st)[i]? = some x) (hturn : x.hasTurn = true) :
    ∃ m, (D.step? (st, c) m).isSome = true := by
  obtain ⟨w, hw⟩ := h.exists_watch hx
  have hfits := h.fits hx hw
  obtain ⟨m, hmove, hsignal⟩ := hD.goesOn hsound hx hturn (h.alone hx hturn)
  have hsteps {t : Nat} (hnow : c.now ≤ t)
      (hontime : ∀ v ∈ c.watches, v.isTicking = true → t ≤ v.deadline)
      (hstarts : D.signal m ≠ .starts) (hallows : w.allows t (D.signal m) = true) :
      ∃ m, (D.step? (st, c) m).isSome = true :=
    ⟨⟨t, i, m⟩, isSome_step? (Clock.isSome_tick? hw hnow hontime (absurd · hstarts) hallows) hmove⟩
  have hpasses (hsignal : D.signal m = .passes) : ∃ m, (D.step? (st, c) m).isSome = true := by
    refine hsteps (Nat.le_refl c.now) h.ticking ?_ ?_ <;> rw [hsignal]
    · exact Signal.noConfusion
    · rfl
  cases x with
  | queued | answered | dropped => contradiction
  | ready o => exact hpasses hsignal
  | waiting =>
    -- the bound passes
    have hticking := hfits.isTicking_iff.2 rfl
    refine hsteps (h.ticking w (List.mem_of_getElem? hw) hticking) (fun v hv hv' => ?_) ?_ ?_
    · exact Nat.le_of_eq (congrArg Watch.deadline (h.eq_of_isTicking hx hturn hw hv hv').2.symm)
    · rw [hsignal]
      exact Signal.noConfusion
    · rw [hsignal]
      simp [Watch.allows, hticking]
  | late came? =>
    rcases hsignal with hsignal | ⟨o, hsignal⟩
    · exact hpasses hsignal
    · -- an answer comes, once its time is over
      refine hsteps (Nat.le_max_left c.now (w.deadline + 1)) (fun v hv hv' => ?_) ?_ ?_
      · exact Ticket.noConfusion (h.eq_of_isTicking hx hturn hw hv hv').1
      · rw [hsignal]
        exact Signal.noConfusion
      · rw [hsignal]
        exact Bool.or_eq_true_iff.2 (.inr (decide_eq_true (by omega)))

theorem OnTime.exists_ticket {tickets : List Ticket} (h : OnTime jobs own isTolerant tickets c)
    {i : Nat} (hi : i < jobs.length) : ∃ x, tickets[i]? = some x :=
  ⟨_, List.getElem?_eq_getElem (by rw [h.length]; exact hi)⟩

theorem OnTime.exists_step_of_queued (hD : D.Lawful jobs own isTolerant sound left)
    (hsound : sound c.order.length st) (h : OnTime jobs own isTolerant (D.tickets st) c)
    (hback : ∀ x ∈ D.tickets st, x.hasTurn = false) (hmore : c.order.length < jobs.length) :
    ∃ m, (D.step? (st, c) m).isSome = true := by
  obtain ⟨x, hx⟩ := h.exists_ticket hmore
  obtain rfl := (h.queued hx).2 (Nat.le_refl _)
  obtain ⟨w, hw⟩ := h.exists_watch hx
  obtain ⟨m, hsignal, hmove⟩ := hD.begins hsound hx hback
  refine ⟨⟨c.now, c.order.length, m⟩, isSome_step? ?_ hmove⟩
  refine Clock.isSome_tick? hw (Nat.le_refl c.now) h.ticking (fun _ => rfl) ?_
  rw [hsignal]
  rfl

theorem OnTime.exists_answered (hD : D.Lawful jobs own isTolerant sound left)
    (hsound : sound c.order.length st) (h : OnTime jobs own isTolerant (D.tickets st) c)
    (hover : D.IsOver (st, c)) {i : Nat} (hi : i < jobs.length) :
    ∃ o, (D.tickets st)[i]? = some (.answered o) := by
  have hstuck : ¬∃ m, (D.step? (st, c) m).isSome = true := by
    rintro ⟨m, hm⟩
    simp [hover m] at hm
  have hback : ∀ x ∈ D.tickets st, x.hasTurn = false := by
    intro x hmem
    obtain ⟨j, hj⟩ := List.getElem?_of_mem hmem
    rw [Bool.eq_false_iff]
    exact fun hturn => hstuck (h.exists_step_of_hasTurn hD hsound hj hturn)
  obtain ⟨x, hx⟩ := h.exists_ticket hi
  cases x with
  | answered o => exact ⟨o, hx⟩
  | queued =>
    have hmore := Nat.lt_of_le_of_lt ((h.queued hx).1 rfl) hi
    exact absurd (h.exists_step_of_queued hD hsound hback hmore) hstuck
  | dropped =>
    obtain ⟨w, hw⟩ := h.exists_watch hx
    exact (h.fits hx hw).elim
  | waiting | ready | late =>
    have hturn := hback _ (List.mem_of_getElem? hx)
    contradiction

end

/-! ### What becomes of the statements -/

/-- What a statement that started at `since` is answered: its own answer if that came within the
bound, and a timeout otherwise, unless the session is tolerant and success came behind the bound. -/
structure IsAnswer (job : Job) (own : Outcome) (isTolerant : Bool) (since : Nat)
    (came? : Option (Nat × Outcome)) (o : Outcome) : Prop where
  inTime : ∀ t r, came? = some (t, r) → t ≤ since + job.bound.nanoseconds → r = own ∧ o = own
  late : (∀ t r, came? = some (t, r) → since + job.bound.nanoseconds < t) →
    (isTolerant = true → (∃ t, came? = some (t, .ok ())) → o = .ok ()) ∧
    (isTolerant = false ∨ (¬∃ t, came? = some (t, .ok ())) → o = .error (.timeout job.bound))

/-- How the statements stand at some moment: one of them at most has its turn, all that have started
are a front of the queue, and what they are answered is theirs. -/
structure InTurn {σ μ : Type} (D : Dispatcher σ μ) (jobs : List Job) (own : Nat → Outcome)
    (isTolerant : Bool) (trace : List (Timed μ)) (st : σ) (c : Clock) : Prop where
  alone : ∀ {i j : Nat} {x y : Ticket}, (D.tickets st)[i]? = some x → (D.tickets st)[j]? = some y →
    x.hasTurn = true → y.hasTurn = true → i = j
  order : c.order = List.range c.order.length
  behind : ∀ {i j : Nat} {x y : Ticket}, i < j → (D.tickets st)[i]? = some x →
    (D.tickets st)[j]? = some y → y ≠ .queued → ∃ o, x = .answered o
  answer : ∀ {i : Nat} {job : Job} {w : Watch} {o : Outcome}, jobs[i]? = some job →
    c.watches[i]? = some w → (D.tickets st)[i]? = some (.answered o) →
    ∃ since, w.started? = some since ∧ IsAnswer job (own i) isTolerant since w.came? o
  bounded : trace.length ≤ 8 * jobs.length
  answered : D.IsOver (st, c) → ∀ i < jobs.length, ∃ o, (D.tickets st)[i]? = some (.answered o)

section
variable {σ μ : Type} {D : Dispatcher σ μ} {jobs : List Job} {own : Nat → Outcome}
  {isTolerant : Bool} {sound : Nat → σ → Prop} {left : σ → Nat} {st : σ} {c : Clock}

theorem Ticket.lateAnswer_of_success {bound : Duration} {came? : Option Outcome}
    (htolerant : isTolerant = true) (hcame : came? = some (.ok ())) :
    lateAnswer isTolerant bound came? = .ok () := by
  rw [htolerant, hcame]
  rfl

theorem Ticket.lateAnswer_of_not {bound : Duration} {came? : Option Outcome}
    (h : isTolerant = false ∨ came? ≠ some (.ok ())) :
    lateAnswer isTolerant bound came? = .error (.timeout bound) := by
  rcases h with rfl | hcame
  · rfl
  · have hany : came?.any (·.isOk) = false := by
      rcases came? with _ | _ | _
      · rfl
      · rfl
      · exact absurd rfl hcame
    simp [lateAnswer, hany]

theorem Watch.Fits.isAnswer {w : Watch} {job : Job} {o own : Outcome} (hbound : job.bound = w.bound)
    (h : w.Fits isTolerant own (.answered o)) :
    ∃ since, w.started? = some since ∧ IsAnswer job own isTolerant since w.came? o := by
  obtain ⟨hstarted, -, rfl, hown⟩ := h
  obtain ⟨since, hsince⟩ := Option.isSome_iff_exists.1 hstarted
  have hdeadline : w.deadline = since + job.bound.nanoseconds := by
    simp [Watch.deadline, hsince, hbound]
  refine ⟨since, hsince, ⟨fun t r hcame ht => ?_, fun hlate => ?_⟩⟩
  · have hintime : w.isInTime = true := by simpa [Watch.isInTime, hcame, hdeadline] using ht
    have hr := hown hintime
    rw [hcame] at hr
    exact ⟨Option.some.inj hr, by simp [Watch.verdict, hintime]⟩
  · have hintime : w.isInTime = false := by
      rw [Bool.eq_false_iff]
      intro hintime
      obtain ⟨⟨t, r⟩, hcame, ht⟩ := (Option.any_eq_true _ _).1 hintime
      have hgt := hlate t r hcame
      simp only [hdeadline, decide_eq_true_eq] at ht
      omega
    have hverdict : w.verdict isTolerant own =
        Ticket.lateAnswer isTolerant job.bound (w.came?.map Prod.snd) := by
      simp [Watch.verdict, hintime, hbound]
    rw [hverdict]
    refine ⟨fun htolerant ⟨t, hcame⟩ => ?_, fun hnot => ?_⟩
    · exact Ticket.lateAnswer_of_success htolerant (by rw [hcame]; rfl)
    · refine Ticket.lateAnswer_of_not (hnot.imp_right fun hnot hcame => hnot ?_)
      obtain ⟨⟨t, r⟩, hcame, rfl⟩ := Option.map_eq_some_iff.1 hcame
      exact ⟨t, hcame⟩

theorem OnTime.behind {tickets : List Ticket} (h : OnTime jobs own isTolerant tickets c) {i j : Nat}
    {x y : Ticket} (hij : i < j) (hx : tickets[i]? = some x) (hy : tickets[j]? = some y)
    (hstarted : y ≠ .queued) : ∃ o, x = .answered o := by
  have hj : j < c.order.length := Nat.lt_of_not_le fun hle => hstarted ((h.queued hy).2 hle)
  obtain ⟨w, hw⟩ := h.exists_watch hx
  cases x with
  | answered o => exact ⟨o, rfl⟩
  | queued =>
    have hle := (h.queued hx).1 rfl
    omega
  | dropped => exact (h.fits hx hw).elim
  | waiting | ready | late =>
    have hlast := h.turn hx rfl
    omega

theorem Dispatcher.Lawful.inTurn (hD : D.Lawful jobs own isTolerant sound left)
    {trace : List (Timed μ)} (h : D.run? jobs trace = some (st, c)) :
    InTurn D jobs own isTolerant trace st c := by
  obtain ⟨hsound, hontime⟩ := OnTime.run hD h
  constructor
  case alone =>
    intro i j x y hx hy hxturn hyturn
    have hlast := hontime.turn hx hxturn
    have hlast' := hontime.turn hy hyturn
    omega
  case order => exact hontime.order
  case behind => exact hontime.behind
  case answer =>
    intro i job w o hjob hw hticket
    obtain ⟨job', hjob', hbound⟩ := hontime.exists_job hw
    obtain rfl : job = job' := Option.some.inj (hjob.symm.trans hjob')
    exact (hontime.fits hticket hw).isAnswer hbound
  case bounded =>
    have hle := length_add_left_le hD h
    have hstart : left (D.handedOver jobs) ≤ 8 * jobs.length := hD.left_start
    exact Nat.le_trans (Nat.le_add_right ..) (Nat.le_trans hle hstart)
  case answered => exact fun hover i hi => hontime.exists_answered hD hsound hover hi

end

end SqlBatch.Session
