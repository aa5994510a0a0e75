import JourneyTimes.Proofs.Cost.Readers

/-!
# What readers remember does not show

A reader remembers its last answer and keeps sorted departures, and it shares both
with its clones.  None of this shows in the answers: whatever the readers of a
timetable have been asked, and however they have been cloned and cleared, each of
them answers as a new reader would, which remembers nothing and has an empty cache.
Only a link number has to mean the same link throughout.

An answer is remembered for a time that compares equal to the one asked about.  For
double precision numbers this is not to say that they are the same number, as there
are two zeros.  It does say that the arithmetic of timetables does not tell them
apart, except for the sign of a zero in the end, and this is all that is used here.
-/

namespace JourneyTimes

/-! ## Scalars that arithmetic does not tell apart -/

/-- A relation between scalars that the arithmetic of timetables respects, and that holds
between scalars which compare equal.  Equality is one, where no other scalars compare equal. -/
structure Scalar.IsCongruence {α : Type} [Scalar α] (same : α → α → Prop) : Prop where
  refl : ∀ value, same value value
  of_beq : ∀ {left right : α}, (left == right) = true → same left right
  neg : ∀ {left right : α}, same left right → same (-left) (-right)
  add : ∀ {left right less more : α}, same left right → same less more →
    same (left + less) (right + more)
  sub : ∀ {left right less more : α}, same left right → same less more →
    same (left - less) (right - more)
  mul : ∀ {left right less more : α}, same left right → same less more →
    same (left * less) (right * more)
  lt_iff : ∀ {left right less more : α}, same left right → same less more →
    (left < less ↔ right < more)
  le_iff : ∀ {left right less more : α}, same left right → same less more →
    (left ≤ less ↔ right ≤ more)
  remainder : ∀ {left right : α}, same left right →
    same (Scalar.remainder left Timetable.day) (Scalar.remainder right Timetable.day)
  days : ∀ {left right : α}, same left right →
    Scalar.wholePart (left / Timetable.day) = Scalar.wholePart (right / Timetable.day)

theorem Scalar.isCongruence_eq {α : Type} [Scalar α]
    (eq_of_beq : ∀ {left right : α}, (left == right) = true → left = right) :
    IsCongruence (Eq : α → α → Prop) where
  refl _ := rfl
  of_beq := eq_of_beq
  neg := by rintro _ _ rfl; rfl
  add := by rintro _ _ _ _ rfl rfl; rfl
  sub := by rintro _ _ _ _ rfl rfl; rfl
  mul := by rintro _ _ _ _ rfl rfl; rfl
  lt_iff := by rintro _ _ _ _ rfl rfl; rfl
  le_iff := by rintro _ _ _ _ rfl rfl; rfl
  remainder := by rintro _ _ rfl; rfl
  days := by rintro _ _ rfl; rfl

theorem Exact.isCongruence_eq {K : Type} [Field K] [LinearOrder K] [FloorRing K]
    [Trigonometry K] : Scalar.IsCongruence (Eq : Exact K → Exact K → Prop) :=
  Scalar.isCongruence_eq fun compared => (of_decide_eq_true compared).1

variable {α : Type} [Scalar α] {same : α → α → Prop} (congruence : Scalar.IsCongruence same)

include congruence

namespace Timetable

/-- Which departure is next does not depend on which of two such times is asked about. -/
theorem nextDeparture_congr (departures : List α) (offset : α) {time other : α}
    (times : same time other) :
    nextDeparture departures offset time = nextDeparture departures offset other := by
  have added (fuel : Nat) (departure : α) :
      addDays time fuel departure = addDays other fuel departure := by
    induction fuel generalizing departure with
    | zero => rfl
    | succ fuel ih =>
        rw [addDays, addDays, ih]
        exact if_congr (congruence.lt_iff (congruence.refl departure) times) rfl rfl
  have between (departure : α) : daysBetween departure time = daysBetween departure other := by
    rw [daysBetween, daysBetween, congruence.days (congruence.sub times (congruence.refl _))]
  have folded : same (fold (time - offset)) (fold (other - offset)) := by
    have shifted := congruence.sub times (congruence.refl offset)
    have later := congruence.le_iff (congruence.refl day) shifted
    unfold fold
    split_ifs with first second second
    · exact congruence.remainder shifted
    · exact absurd (later.mp first) second
    · exact absurd (later.mpr second) first
    · exact shifted
  have first : firstFrom? departures (fold (time - offset)) =
      firstFrom? departures (fold (other - offset)) := by
    have early : (fun departure => !decide (departure < fold (time - offset))) =
        fun departure => !decide (departure < fold (other - offset)) := by
      funext departure
      rw [decide_eq_decide.mpr (congruence.lt_iff (congruence.refl departure) folded)]
    rw [firstFrom?, firstFrom?, early]
  rw [nextDeparture, nextDeparture, first]
  cases firstFrom? departures (fold (other - offset)) with
  | none => rfl
  | some departure =>
      dsimp only
      rw [added, between]

theorem rideTime_congr (departures : List α) (departureOffset arrivalOffset : α)
    {time other : α} (times : same time other) :
    same (rideTime departures departureOffset arrivalOffset time)
      (rideTime departures departureOffset arrivalOffset other) := by
  unfold rideTime
  rw [nextDeparture_congr congruence departures departureOffset times]
  have durations := congruence.add
    (congruence.sub (congruence.refl (nextDeparture departures departureOffset other)) times)
    (congruence.refl (arrivalOffset - departureOffset))
  have negative := congruence.lt_iff durations (congruence.refl 0)
  dsimp only
  split_ifs with first second second
  · exact congruence.add durations (congruence.refl day)
  · exact absurd (negative.mp first) second
  · exact absurd (negative.mpr second) first
  · exact durations

end Timetable

namespace Transit

theorem travelTime_congr (timetable : Timetable α) (settings : RouterSettings α)
    (link : Graph.Link α) {time other : α} (times : same time other) :
    same ((costModel timetable settings).travelTime link time)
      ((costModel timetable settings).travelTime link other) := by
  unfold costModel travelTime
  dsimp only
  split
  · exact congruence.refl _
  · split
    · exact congruence.refl _
    · exact Timetable.rideTime_congr congruence _ _ _ times

theorem costOf_congr (settings : RouterSettings α) (link : Graph.Link α)
    {duration other : α} (durations : same duration other) :
    same (costOf settings link duration) (costOf settings link other) := by
  have refl := congruence.refl
  unfold costOf
  split
  · exact congruence.sub (congruence.mul (congruence.neg durations) (refl _)) (refl _)
  · exact congruence.sub (congruence.sub
      (congruence.mul (congruence.neg (congruence.sub durations (refl _))) (refl _)) (refl _))
      (refl _)

end Transit

omit congruence

/-! ## Calls -/

namespace Transit.Readers

/-- What a reader can be asked. -/
inductive Question (α : Type) where
  | travelTime (link : Graph.Link α) (time : α)
  | disutility (link : Graph.Link α) (time : α)
  | minimum (link : Graph.Link α)
  | nextDeparture (route stop : Nat) (time : α)

omit [Scalar α] in
/-- The link that a question is about. -/
def Question.link? : Question α → Option (Graph.Link α)
  | .travelTime link _ | .disutility link _ | .minimum link => some link
  | .nextDeparture _ _ _ => none

/-- Put a question to a reader.  Questions about what is not in the timetable are refused. -/
def ask (family : Readers α) (number : Nat) : Question α → Option (α × Readers α)
  | .travelTime link time => family.travelTime? number link time
  | .disutility link time => family.disutility? number link time
  | .minimum link => (family.minimum? number link).map fun price => (price, family)
  | .nextDeparture route stop time => family.nextDeparture? number route stop time

/-- A reader that does not exist refuses every question. -/
theorem ask_unknown {family : Readers α} {number : Nat} (unknown : family.readers[number]? = none)
    (question : Question α) : family.ask number question = none := by
  cases question <;> simp [ask, travelTime?, disutility?, minimum?, nextDeparture?, unknown]

/-- What can be done with readers. -/
inductive Call (α : Type) where
  | ask (number : Nat) (question : Question α)
  | clone (number : Nat)
  | clear (number : Nat)

/-- The readers after a call; one that is refused changes nothing. -/
def perform (family : Readers α) : Call α → Readers α
  | .ask number question => ((family.ask number question).map Prod.snd).getD family
  | .clone number => ((family.clone? number).map Prod.snd).getD family
  | .clear number => (family.clear? number).getD family

/-- The readers after some calls. -/
def after (family : Readers α) (calls : List (Call α)) : Readers α :=
  calls.foldl perform family

omit [Scalar α] in
/-- Whether some calls pass a link to a reader. -/
def Passes (calls : List (Call α)) (link : Graph.Link α) : Prop :=
  ∃ number question, Call.ask number question ∈ calls ∧ question.link? = some link

/-- The answer of the cost model of a timetable. -/
def Question.answer (timetable : Timetable α) (settings : RouterSettings α) :
    Question α → Option α
  | .travelTime link time =>
    if prices timetable link then some ((costModel timetable settings).travelTime link time)
    else none
  | .disutility link time =>
    if prices timetable link then some ((costModel timetable settings).disutility link time)
    else none
  | .minimum link =>
    if prices timetable link then some ((costModel timetable settings).minimum link) else none
  | .nextDeparture route stop time =>
    (timetable.stop? route stop).map fun found =>
      Timetable.nextDeparture ((allDepartures timetable).getD route []) found.offsets.departure
        time

/-! ## What readers remember -/

section

variable (timetable : Timetable α) (settings : RouterSettings α) {link : Graph.Link α}

theorem travelTime_transfer (isTransfer : link.stretch = none) (time : α) :
    prices timetable link = true ∧
      (costModel timetable settings).travelTime link time = transferTime settings link := by
  simp [prices, costModel, Transit.travelTime, isTransfer]

variable {timetable} {stretch : Stretch} (isRide : link.stretch = some stretch)

include isRide

theorem travelTime_ride {ends : Timetable.Stop α × Timetable.Stop α}
    (served : ends? timetable stretch = some ends) (time : α) :
    prices timetable link = true ∧
      (costModel timetable settings).travelTime link time =
        Timetable.rideTime ((allDepartures timetable).getD stretch.route [])
          ends.1.offsets.departure ends.2.offsets.arrival time := by
  simp [prices, costModel, Transit.travelTime, isRide, served]

omit [Scalar α] in
theorem prices_unserved (unserved : ends? timetable stretch = none) :
    prices timetable link = false := by
  simp [prices, isRide, unserved]

end

variable {timetable : Timetable α} {settings : RouterSettings α}
  {passed : Graph.Link α → Prop} {family : Readers α}

/-- Caches hold the departures of the timetable, and readers remember what it says about
links that have been passed. -/
structure Mindful (timetable : Timetable α) (settings : RouterSettings α)
    (passed : Graph.Link α → Prop) (family : Readers α) : Prop
    extends Faithful timetable family where
  settings_eq : family.settings = settings
  remembers : ∀ (number : Nat) (reader : Reader α) (memo : Memo α),
    family.readers[number]? = some reader → reader.memo = some memo →
    ∃ link, passed link ∧ link.index = memo.link ∧ prices timetable link = true ∧
      memo.duration = (costModel timetable settings).travelTime link memo.time

namespace Mindful

theorem make (timetable : Timetable α) (settings : RouterSettings α)
    (passed : Graph.Link α → Prop) :
    Mindful timetable settings passed (Readers.make timetable settings) where
  toFaithful := .make
  settings_eq := rfl
  remembers := by
    intro number reader memo found remembered
    rcases Array.getElem?_eq_some_iff.mp found with ⟨inside, rfl⟩
    simp [Readers.make] at remembered

theorem keep (mindful : Mindful timetable settings passed family) (reader : Reader α)
    (route : Nat) :
    Mindful timetable settings passed
      (family.keep reader route (family.lookUp (family.cacheOf reader) route)) where
  toFaithful := mindful.toFaithful.keep reader (mindful.lookUp_eq reader route)
  settings_eq := mindful.settings_eq
  remembers := mindful.remembers

/-- What the timetable says about a link may be remembered. -/
theorem remember (mindful : Mindful timetable settings passed family) (number : Nat)
    {link : Graph.Link α} (isPassed : passed link) (priced : prices timetable link = true)
    (time : α) :
    Mindful timetable settings passed (family.remember number
      ⟨link.index, time, (costModel timetable settings).travelTime link time⟩) where
  toFaithful := mindful.toFaithful.remember number _
  settings_eq := mindful.settings_eq
  remembers := by
    intro other reader memo found remembered
    rw [Readers.remember, Array.getElem?_modify] at found
    split_ifs at found
    · rcases Option.map_eq_some_iff.mp found with ⟨before, -, rfl⟩
      cases remembered
      exact ⟨link, isPassed, rfl, priced, rfl⟩
    · exact mindful.remembers other reader memo found remembered

/-- What is remembered for a link is what the timetable says about it. -/
theorem remembered?_eq_some (mindful : Mindful timetable settings passed family)
    (unique : ∀ link other, passed link → passed other → link.index = other.index → link = other)
    {number : Nat} {reader : Reader α} (found : family.readers[number]? = some reader)
    {link : Graph.Link α} (isPassed : passed link) {time duration : α}
    (known : remembered? reader link time = some duration) :
    ∃ memo, reader.memo = some memo ∧ (memo.time == time) = true ∧
      prices timetable link = true ∧
      duration = (costModel timetable settings).travelTime link memo.time := by
  rcases Readers.remembered?_eq_some known with ⟨memo, held, isLast, compared, rfl⟩
  rcases mindful.remembers number reader memo found held with
    ⟨other, otherPassed, named, priced, duration⟩
  obtain rfl : other = link := unique other link otherPassed isPassed (named.trans isLast)
  exact ⟨memo, held, compared, priced, duration⟩

/-- A reader answers from memory, or else as the timetable does. -/
theorem travelTime?_cases (mindful : Mindful timetable settings passed family)
    (unique : ∀ link other, passed link → passed other → link.index = other.index → link = other)
    {number : Nat} {reader : Reader α} (found : family.readers[number]? = some reader)
    {link : Graph.Link α} (isPassed : passed link) (time : α) :
    (∃ memo, reader.memo = some memo ∧ (memo.time == time) = true ∧
      prices timetable link = true ∧ family.travelTime? number link time =
        some ((costModel timetable settings).travelTime link memo.time, family)) ∨
    (prices timetable link = true ∧ ∃ next, Mindful timetable settings passed next ∧
      family.travelTime? number link time =
        some ((costModel timetable settings).travelTime link time, next)) ∨
    prices timetable link = false ∧ family.travelTime? number link time = none := by
  rw [travelTime?, found, Option.bind_eq_bind, Option.bind_some]
  cases known : remembered? reader link time with
  | some duration =>
      rcases mindful.remembered?_eq_some unique found isPassed known with
        ⟨memo, held, compared, priced, rfl⟩
      exact .inl ⟨memo, held, compared, priced, rfl⟩
  | none =>
      right
      cases isStretch : link.stretch with
      | none =>
          rcases travelTime_transfer timetable settings isStretch time with ⟨priced, duration⟩
          refine .inl ⟨priced, _, mindful.remember number isPassed priced time, ?_⟩
          rw [duration, mindful.settings_eq]
          rfl
      | some stretch =>
          dsimp only
          rw [mindful.timetable_eq]
          cases served : ends? timetable stretch with
          | none => exact .inr ⟨prices_unserved isStretch served, rfl⟩
          | some ends =>
              rcases travelTime_ride settings isStretch served time with ⟨priced, duration⟩
              refine .inl ⟨priced, _,
                (mindful.keep reader stretch.route).remember number isPassed priced time, ?_⟩
              rw [duration, ← mindful.lookUp_eq reader]
              rfl

theorem clone (mindful : Mindful timetable settings passed family) (number : Nat) :
    Mindful timetable settings passed (family.perform (.clone number)) := by
  rw [perform]
  cases cloned : family.clone? number with
  | none => exact mindful
  | some pair =>
      rcases pair with ⟨copy, next⟩
      rcases clone?_eq_some cloned with ⟨readers, rfl, known⟩
      refine ⟨mindful.toFaithful.clone cloned, mindful.settings_eq, ?_⟩
      intro other reader memo found remembered
      rcases known other reader found with ⟨before, old⟩
      exact mindful.remembers before reader memo old remembered

theorem clear (mindful : Mindful timetable settings passed family) (number : Nat) :
    Mindful timetable settings passed (family.perform (.clear number)) := by
  rw [perform]
  cases cleared : family.clear? number with
  | none => exact mindful
  | some next =>
      rcases clear?_eq_some cleared with ⟨caches, readers, rfl, -, -, known⟩
      refine ⟨mindful.toFaithful.clear cleared, mindful.settings_eq, ?_⟩
      intro other reader memo found remembered
      rcases known other reader found with rfl | old
      · cases remembered
      · exact mindful.remembers other reader memo old remembered

/-! ## Answers -/

/-- A reader is asked how long a link takes: it answers what the timetable says, if the link is
in the timetable, and without a memo the very same. -/
theorem travelTime?_answers (congruence : Scalar.IsCongruence same)
    (mindful : Mindful timetable settings passed family)
    (unique : ∀ link other, passed link → passed other → link.index = other.index → link = other)
    {number : Nat} {reader : Reader α} (found : family.readers[number]? = some reader)
    {link : Graph.Link α} (isPassed : passed link) (time : α) :
    prices timetable link = false ∧ family.travelTime? number link time = none ∨
    prices timetable link = true ∧ ∃ duration next,
      family.travelTime? number link time = some (duration, next) ∧
      Mindful timetable settings passed next ∧
      same duration ((costModel timetable settings).travelTime link time) ∧
      (reader.memo = none → duration = (costModel timetable settings).travelTime link time) := by
  rcases mindful.travelTime?_cases unique found isPassed time with
    ⟨memo, held, compared, priced, asked⟩ | ⟨priced, next, kept, asked⟩ | ⟨unpriced, asked⟩
  · refine .inr ⟨priced, _, _, asked, mindful, ?_, ?_⟩
    · exact travelTime_congr congruence _ _ _ (congruence.of_beq compared)
    · intro nothing
      rw [held] at nothing
      cases nothing
  · exact .inr ⟨priced, _, _, asked, kept, congruence.refl _, fun _ => rfl⟩
  · exact .inl ⟨unpriced, asked⟩

/-- A reader refuses what the timetable has no answer to.  Otherwise its answer is that of the
timetable, and without a memo it is the very same. -/
theorem ask_cases (congruence : Scalar.IsCongruence same)
    (mindful : Mindful timetable settings passed family)
    (unique : ∀ link other, passed link → passed other → link.index = other.index → link = other)
    {number : Nat} {reader : Reader α} (found : family.readers[number]? = some reader)
    {question : Question α} (isPassed : ∀ link, question.link? = some link → passed link) :
    family.ask number question = none ∧ question.answer timetable settings = none ∨
    ∃ value expected next, family.ask number question = some (value, next) ∧
      question.answer timetable settings = some expected ∧
      Mindful timetable settings passed next ∧ same value expected ∧
      (reader.memo = none → value = expected) := by
  cases question with
  | travelTime link time =>
      rw [Question.answer, Readers.ask]
      rcases mindful.travelTime?_answers congruence unique found (isPassed link rfl) time with
        ⟨unpriced, asked⟩ | ⟨priced, duration, next, asked, kept, alike, unremembered⟩
      · rw [if_neg (Bool.eq_false_iff.mp unpriced)]
        exact .inl ⟨asked, rfl⟩
      · rw [if_pos priced]
        exact .inr ⟨_, _, next, asked, rfl, kept, alike, unremembered⟩
  | disutility link time =>
      rw [Question.answer, Readers.ask, disutility?]
      rcases mindful.travelTime?_answers congruence unique found (isPassed link rfl) time with
        ⟨unpriced, asked⟩ | ⟨priced, duration, next, asked, kept, alike, unremembered⟩
      · rw [if_neg (Bool.eq_false_iff.mp unpriced), asked]
        exact .inl ⟨rfl, rfl⟩
      · have price : (costModel timetable settings).disutility link time =
            costOf next.settings link ((costModel timetable settings).travelTime link time) := by
          rw [kept.settings_eq]
          rfl
        rw [if_pos priced, asked, price]
        refine .inr ⟨_, _, next, rfl, rfl, kept, costOf_congr congruence _ _ alike, ?_⟩
        intro nothing
        rw [unremembered nothing]
  | minimum link =>
      rw [Question.answer, Readers.ask, minimum?, found, Option.bind_eq_bind, Option.bind_some,
        mindful.timetable_eq, mindful.settings_eq]
      split_ifs with priced
      · exact .inr ⟨_, _, _, rfl, rfl, mindful, congruence.refl _, fun _ => rfl⟩
      · exact .inl ⟨rfl, rfl⟩
  | nextDeparture route stop time =>
      rw [Question.answer, Readers.ask, nextDeparture?, found, Option.bind_eq_bind,
        Option.bind_some, mindful.timetable_eq]
      cases timetable.stop? route stop with
      | none => exact .inl ⟨rfl, rfl⟩
      | some served =>
          rw [← mindful.lookUp_eq reader route]
          exact .inr ⟨_, _, _, rfl, rfl, mindful.keep reader route, congruence.refl _,
            fun _ => rfl⟩

/-- Whatever is done with readers, they remember nothing but what the timetable says. -/
protected theorem after (congruence : Scalar.IsCongruence same)
    (mindful : Mindful timetable settings passed family)
    (unique : ∀ link other, passed link → passed other → link.index = other.index → link = other)
    (calls : List (Call α)) (isPassed : ∀ link, Passes calls link → passed link) :
    Mindful timetable settings passed (family.after calls) := by
  induction calls generalizing family with
  | nil => exact mindful
  | cons call calls ih =>
      rw [Readers.after, List.foldl_cons]
      refine ih ?_ ?_
      · cases call with
        | ask number question =>
            have questionPassed (link : Graph.Link α) (named : question.link? = some link) :
                passed link :=
              isPassed link ⟨number, question, List.mem_cons_self .., named⟩
            rw [perform]
            cases found : family.readers[number]? with
            | none =>
                rw [ask_unknown found]
                exact mindful
            | some reader =>
                rcases mindful.ask_cases congruence unique found questionPassed with
                  ⟨asked, -⟩ | ⟨value, expected, next, asked, -, kept, -⟩
                · rw [asked]
                  exact mindful
                · rw [asked]
                  exact kept
        | clone number => exact mindful.clone number
        | clear number => exact mindful.clear number
      · rintro link ⟨number, question, member, named⟩
        exact isPassed link ⟨number, question, List.mem_cons_of_mem _ member, named⟩

end Mindful

/-- Whatever the readers of a timetable have been asked, and however they have been cloned
and cleared, each of them answers as a new reader does, as long as a link number always means
the same link.  A new reader answers as the cost model of the timetable. -/
theorem ask_after (congruence : Scalar.IsCongruence same) (timetable : Timetable α)
    (settings : RouterSettings α) (calls : List (Call α)) {number : Nat} {question : Question α}
    (numbered : ∀ link other, Passes (calls ++ [.ask number question]) link →
      Passes (calls ++ [.ask number question]) other → link.index = other.index → link = other)
    (known : number < ((make timetable settings).after calls).readers.size) :
    Option.Rel same ((((make timetable settings).after calls).ask number question).map Prod.fst)
        (((make timetable settings).ask 0 question).map Prod.fst) ∧
      ((make timetable settings).ask 0 question).map Prod.fst =
        question.answer timetable settings := by
  have fresh := Mindful.make timetable settings (Passes (calls ++ [.ask number question]))
  have isPassed (link : Graph.Link α) (named : question.link? = some link) :
      Passes (calls ++ [.ask number question]) link :=
    ⟨number, question, List.mem_append_right _ (List.mem_singleton.mpr rfl), named⟩
  have mindful := fresh.after congruence numbered calls <| by
    rintro link ⟨other, another, member, named⟩
    exact ⟨other, another, List.mem_append_left _ member, named⟩
  have first : (make timetable settings).readers[0]? = some ⟨0, none⟩ := rfl
  have freshAnswer : ((make timetable settings).ask 0 question).map Prod.fst =
      question.answer timetable settings := by
    rcases fresh.ask_cases congruence numbered first isPassed with
      ⟨asked, answer⟩ | ⟨value, expected, next, asked, answer, -, -, equal⟩
    · rw [asked, answer]
      rfl
    · rw [asked, answer, ← equal rfl]
      rfl
  refine ⟨?_, freshAnswer⟩
  rw [freshAnswer]
  rcases mindful.ask_cases congruence numbered (Array.getElem?_eq_getElem known) isPassed with
    ⟨asked, answer⟩ | ⟨value, expected, next, asked, answer, -, alike, -⟩
  · rw [asked, answer]
    exact .none
  · rw [asked, answer]
    exact .some alike

/-- The ride of `nightLine` from its first stop to its last. -/
def nightRide : Graph.Link (Exact ℚ) where
  index := 7
  id := "pq"
  origin := 0
  destination := 1
  length := (1000 : ℚ)
  freeSpeed := .infinity
  stretch := some ⟨0, 0, 1⟩

/-- A reader is asked for a time and cloned, and cleared after its clone has been asked.  The
clone still answers as a new reader does. -/
theorem ask_after_nightLine :
    let family := make (Timetable.empty.addRouteUnchecked nightLine) .default
    let calls := [.ask 0 (.travelTime nightRide (1000 : ℚ)), .clone 0,
      .ask 1 (.disutility nightRide (1000 : ℚ)), .clear 0,
      .ask 0 (.nextDeparture 0 0 (90000 : ℚ))]
    (family.after calls).readers.size = 2 ∧
      Option.Rel Eq (((family.after calls).ask 1 (.disutility nightRide (1000 : ℚ))).map Prod.fst)
        ((family.ask 0 (.disutility nightRide (1000 : ℚ))).map Prod.fst) := by
  intro family calls
  have grown : (family.after calls).readers.size = 2 := by decide +kernel
  refine ⟨grown, (ask_after Exact.isCongruence_eq _ _ calls ?_ (by rw [grown]; decide)).1⟩
  have only (link : Graph.Link (Exact ℚ))
      (passes : Passes (calls ++ [.ask 1 (.disutility nightRide (1000 : ℚ))]) link) :
      link = nightRide := by
    rcases passes with ⟨number, question, member, named⟩
    simp only [calls, List.cons_append, List.nil_append, List.mem_cons, Call.ask.injEq,
      reduceCtorEq, List.not_mem_nil, or_false, false_or] at member
    rcases member with ⟨-, rfl⟩ | ⟨-, rfl⟩ | ⟨-, rfl⟩ | ⟨-, rfl⟩ <;> simp_all [Question.link?]
  intro link other isLink isOther _
  rw [only link isLink, only other isOther]

end Transit.Readers

end JourneyTimes
