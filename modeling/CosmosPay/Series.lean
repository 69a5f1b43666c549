import CosmosPay.Printed
import CosmosPay.Text.Gregorian

/-!
# The days of the series

The series of the overview has an entry for each of the thirty calendar days that end today.
Each intent is counted on the day of its creation and on no other, and the volume of a day is
the exact sum over the intents of this day that have succeeded.
-/

namespace CosmosPay

open Awaiting Program Tables Analytics
open Text (CalendarDay Numbers calendarDay dayOfTime decimalValue isoDate msPerDay utcDay)

/-- The calendar day on which an intent was created. -/
def PaymentIntent.createdOn (intent : PaymentIntent) : CalendarDay :=
  utcDay intent.createdAt

/-- The amount of an intent as an exact decimal; an intent without an amount has zero. -/
def PaymentIntent.exactAmount (intent : PaymentIntent) : Rat :=
  (intent.amount.bind decimalValue).getD 0

/-- The thirty different calendar days that end with the day of `now`, one after another. -/
structure LastThirtyDays (now : Nat) (days : List CalendarDay) : Prop where
  length : days.length = 30
  today : days.getLast? = some (utcDay now)
  consecutive : days.IsChain fun day later => later = day.next
  distinct : days.Nodup

/-- The entries of a series stand for these days, and each intent counts on its own day. -/
structure Partitions (intents : List PaymentIntent) (days : List CalendarDay)
    (series : List SeriesDay) : Prop where
  dates : series.map SeriesDay.date = days.map CalendarDay.isoText
  datesDistinct : (series.map SeriesDay.date).Nodup
  counts : series.map SeriesDay.count = days.map fun day =>
    intents.countP fun intent => intent.createdOn = day
  total : (series.map SeriesDay.count).sum =
    intents.countP fun intent => intent.createdOn ∈ days

/-- The volume of each day is the sum over the intents of the day that have succeeded. -/
def SumsByDay (intents : List PaymentIntent) (days : List CalendarDay)
    (series : List SeriesDay) : Prop :=
  (series.map fun entry => decimalValue entry.volume) = days.map fun day =>
    some (((succeeded intents).filter fun intent => intent.createdOn = day).map
      PaymentIntent.exactAmount).sum

/-! ## The thirty days -/

/-- The calendar days of the series. -/
def windowDays (now : Nat) : List CalendarDay :=
  (List.range 30).map fun index : Nat => utcDay (now - 29 * msPerDay + index * msPerDay)

section Window

variable {now : Nat}

/-- The first of the thirty days, by its number. -/
def firstDay (now : Nat) : Nat :=
  dayOfTime (now - (29 : Nat) * msPerDay)

theorem firstDay_add (now : Nat) : firstDay now + 29 = dayOfTime now :=
  Text.dayOfTime_sub now 29 (by decide)

theorem windowDays_eq (now : Nat) :
    windowDays now = (List.range 30).map fun index => calendarDay (firstDay now + index) := by
  unfold windowDays
  refine List.map_congr_left fun index member => ?_
  have few : index < 30 := List.mem_range.mp member
  have before := Text.dayOfTime_sub now (29 - index)
    ((Nat.sub_le 29 index).trans (by decide))
  have first := firstDay_add now
  have same : (now - 29 * msPerDay + index * msPerDay : Int) =
      now - (29 - index : Nat) * msPerDay := by
    push_cast [Nat.le_of_lt_succ few]
    ring
  rw [utcDay, same]
  congr 1
  omega

theorem lastThirtyDays_windowDays (now : Nat) : LastThirtyDays now (windowDays now) := by
  rw [windowDays_eq]
  refine ⟨by simp, ?_, ?_, ?_⟩
  · rw [utcDay, ← firstDay_add now]
    rfl
  · rw [List.isChain_map]
    refine (List.isChain_range _ 30).mpr fun index _ => ?_
    exact Text.calendarDay_succ _
  · refine List.Nodup.map (fun index other same => ?_) List.nodup_range
    exact Nat.add_left_cancel (Text.calendarDay_injective same)

theorem seriesDays_eq (now : Nat) :
    seriesDays now = (windowDays now).map fun day => ⟨day.isoText, 0, "0"⟩ := by
  rw [seriesDays, windowDays, List.map_map]
  rfl

/-- The days before a day of the years up to 9999 are in these years too. -/
theorem year_le_of_mem_windowDays (thisAge : (utcDay now).year ≤ 9999) {day : CalendarDay}
    (member : day ∈ windowDays now) : day.IsValid ∧ day.year ≤ 9999 := by
  rw [windowDays_eq] at member
  obtain ⟨index, isIndex, rfl⟩ := List.mem_map.mp member
  have few : index < 30 := List.mem_range.mp isIndex
  refine ⟨Text.isValid_calendarDay _, le_trans ?_ thisAge⟩
  apply (Text.isValid_calendarDay (dayOfTime now)).year_le
  rw [Text.number_calendarDay, Text.number_calendarDay, ← firstDay_add now]
  omega

theorem isoText_inj_of_mem (thisAge : (utcDay now).year ≤ 9999) {day : CalendarDay}
    (member : day ∈ windowDays now) {intent : PaymentIntent} :
    day.isoText = isoDate intent.createdAt ↔ intent.createdOn = day := by
  obtain ⟨valid, few⟩ := year_le_of_mem_windowDays thisAge member
  constructor
  · intro same
    exact (valid.eq_of_isoText_eq few (Text.isValid_calendarDay _) same).symm
  · rintro rfl
    rfl

end Window

/-! ## Which entry collects an intent -/

/-- Where the dates differ, `indexByDate` finds the entry of a date. -/
theorem get?_indexByDate {series : List SeriesDay}
    (distinct : (series.map SeriesDay.date).Nodup) (date : String) :
    (indexByDate series).get? date = series.findIdx? fun day => day.date = date := by
  have folded : ∀ (step : OrderedMap String Nat → SeriesDay × Nat → OrderedMap String Nat),
      (∀ map day index, step map (day, index) = map.set day.date index) →
      ∀ (start : Nat) (map : OrderedMap String Nat),
        ((series.zipIdx start).foldl step map).get? date =
          ((series.findIdx? fun day => day.date = date).map (start + ·)).or (map.get? date) := by
    intro step isStep
    induction series with
    | nil => simp
    | cons day series ih =>
        obtain ⟨fresh, rest⟩ := List.nodup_cons.mp distinct
        intro start map
        rw [List.zipIdx_cons, List.foldl_cons, ih rest, isStep, OrderedMap.get?_set]
        by_cases same : day.date = date
        · -- the later entries have other dates
          have none : (series.findIdx? fun other => other.date = date) = none := by
            rw [List.findIdx?_eq_none_iff]
            intro other member
            apply decide_eq_false
            rintro rfl
            exact fresh (same ▸ List.mem_map_of_mem member)
          simp [List.findIdx?_cons, same, none]
        · cases later : series.findIdx? fun other => other.date = date with
          | none => simp [List.findIdx?_cons, same, later]
          | some index => simp [List.findIdx?_cons, same, later, Nat.add_assoc, Nat.add_comm 1]
  simpa [indexByDate] using folded _ (fun _ _ _ => rfl) 0 .empty

section Series

variable {now : Nat} {intents : List PaymentIntent}

theorem dates_seriesDays (now : Nat) :
    (seriesDays now).map SeriesDay.date = (windowDays now).map CalendarDay.isoText := by
  rw [seriesDays_eq, List.map_map]
  rfl

theorem nodup_dates (thisAge : (utcDay now).year ≤ 9999) :
    ((windowDays now).map CalendarDay.isoText).Nodup := by
  refine List.Nodup.map_on ?_ (lastThirtyDays_windowDays now).distinct
  intro day member other isOther same
  obtain ⟨valid, few⟩ := year_le_of_mem_windowDays thisAge member
  obtain ⟨validOther, -⟩ := year_le_of_mem_windowDays thisAge isOther
  exact valid.eq_of_isoText_eq few validOther same

/-- The entry that collects an intent is the one of the day of its creation. -/
theorem dayIndex_eq_some_iff (thisAge : (utcDay now).year ≤ 9999) {intent : PaymentIntent}
    {index : Nat} {day : CalendarDay} (isDay : (windowDays now)[index]? = some day) :
    dayIndex now intent = some index ↔ intent.createdOn = day := by
  have member := List.mem_of_getElem? isDay
  have distinct := nodup_dates thisAge
  rw [← dates_seriesDays] at distinct
  rw [← isoText_inj_of_mem thisAge member, dayIndex, get?_indexByDate distinct,
    List.findIdx?_eq_some_iff_getElem]
  have entry : (seriesDays now)[index]? = some ⟨day.isoText, 0, "0"⟩ := by
    rw [seriesDays_eq, List.getElem?_map, isDay]
    rfl
  obtain ⟨few, isEntry⟩ := List.getElem?_eq_some_iff.mp entry
  constructor
  · rintro ⟨_, same, -⟩
    rw [isEntry] at same
    exact of_decide_eq_true same
  · intro same
    refine ⟨few, by rw [isEntry]; exact decide_eq_true same, fun earlier before => ?_⟩
    -- an earlier entry with this date would be the same entry
    intro sameDate
    have isEarlier : earlier < ((seriesDays now).map SeriesDay.date).length := by
      simpa using before.trans few
    have isIndex : index < ((seriesDays now).map SeriesDay.date).length := by simpa using few
    have twice : ((seriesDays now).map SeriesDay.date)[earlier] =
        ((seriesDays now).map SeriesDay.date)[index] := by
      rw [List.getElem_map, List.getElem_map, isEntry, of_decide_eq_true sameDate]
      exact same.symm
    exact before.ne (distinct.getElem_inj_iff.mp twice)

/-- Each entry is the fold over the intents of its day. -/
theorem series_eq (thisAge : (utcDay now).year ≤ 9999) (numbers : Numbers) :
    series numbers now intents = (windowDays now).map fun day =>
      (intents.filter fun intent => intent.createdOn = day).foldl
        (fun entry intent => addToDay numbers intent entry) ⟨day.isoText, 0, "0"⟩ := by
  apply List.ext_getElem?
  intro index
  rw [series, getElem?_addToSeries, seriesDays_eq, List.getElem?_map, List.getElem?_map,
    Option.map_map]
  apply Option.map_congr
  intro day isDay
  have collected : ∀ intent : PaymentIntent,
      ((indexByDate ((windowDays now).map fun day => ⟨day.isoText, 0, "0"⟩)).get?
        (isoDate intent.createdAt) = some index) = (intent.createdOn = day) := by
    intro intent
    rw [← seriesDays_eq]
    exact propext (dayIndex_eq_some_iff thisAge isDay)
  simp only [collected, Function.comp_apply]

/-! ## What the entries count -/

theorem foldl_addToDay (numbers : Numbers) (intents : List PaymentIntent) (entry : SeriesDay) :
    (intents.foldl (fun entry intent => addToDay numbers intent entry) entry).date = entry.date ∧
    (intents.foldl (fun entry intent => addToDay numbers intent entry) entry).count =
      entry.count + intents.length := by
  induction intents generalizing entry with
  | nil => exact ⟨rfl, rfl⟩
  | cons intent intents ih =>
      obtain ⟨date, count⟩ := ih (addToDay numbers intent entry)
      rw [List.foldl_cons, date, count, List.length_cons]
      refine ⟨rfl, ?_⟩
      simp only [addToDay]
      omega

theorem dates_series (thisAge : (utcDay now).year ≤ 9999) (numbers : Numbers) :
    (series numbers now intents).map SeriesDay.date =
      (windowDays now).map CalendarDay.isoText := by
  rw [series_eq thisAge, List.map_map]
  refine List.map_congr_left fun day _ => ?_
  exact (foldl_addToDay numbers _ _).1

theorem counts_series (thisAge : (utcDay now).year ≤ 9999) (numbers : Numbers) :
    (series numbers now intents).map SeriesDay.count = (windowDays now).map fun day =>
      intents.countP fun intent => intent.createdOn = day := by
  rw [series_eq thisAge, List.map_map]
  refine List.map_congr_left fun day _ => ?_
  rw [Function.comp_apply, (foldl_addToDay numbers _ _).2, Nat.zero_add,
    List.countP_eq_length_filter]

/-- Every intent of the window is counted on one day. -/
theorem sum_counts {days : List CalendarDay} (distinct : days.Nodup) :
    (days.map fun day => intents.countP fun intent => intent.createdOn = day).sum =
      intents.countP fun intent => intent.createdOn ∈ days := by
  have inside : ∀ day ∈ days, (intents.countP fun intent => intent.createdOn = day) =
      (intents.filter fun intent => intent.createdOn ∈ days).countP fun intent =>
        intent.createdOn = day := by
    intro day member
    rw [List.countP_filter]
    refine List.countP_congr fun intent _ => ?_
    simp only [decide_eq_true_eq, Bool.and_eq_true]
    constructor
    · rintro rfl
      exact ⟨rfl, member⟩
    · exact And.left
  rw [List.map_congr_left inside, sum_countP_keys distinct, List.countP_eq_length_filter]
  intro intent member
  exact of_decide_eq_true (List.mem_filter.mp member).2

/-- An intent more counts one more on its own day, and on no other. -/
theorem countP_insert (before after : List PaymentIntent) (intent : PaymentIntent)
    (day : CalendarDay) :
    ((before ++ intent :: after).countP fun intent => intent.createdOn = day) =
      ((before ++ after).countP fun intent => intent.createdOn = day) +
        if intent.createdOn = day then 1 else 0 := by
  simp only [List.countP_append, List.countP_cons, decide_eq_true_eq]
  omega

/-! ## What the entries sum up -/

theorem exactAmount_of_priced {intent : PaymentIntent} (priced : intent.Priced) :
    intent.exactAmount = (stroopsOf intent : Rat) / 10 ^ 7 := by
  cases given : intent.amount with
  | none => simp [PaymentIntent.exactAmount, stroopsOf, given]
  | some amount =>
      rw [PaymentIntent.exactAmount, given, Option.bind_some,
        decimalValue_of_priced priced given, Option.getD_some]

theorem sum_exactAmount (priced : ∀ intent ∈ intents, intent.Priced) :
    (intents.map PaymentIntent.exactAmount).sum = (totalStroops intents : Rat) / 10 ^ 7 := by
  induction intents with
  | nil => simp [totalStroops]
  | cons intent intents ih =>
      have first := exactAmount_of_priced (priced intent List.mem_cons_self)
      have rest := ih fun other member => priced other (List.mem_cons_of_mem intent member)
      rw [List.map_cons, List.sum_cons, first, rest, totalStroops, totalStroops, List.map_cons,
        List.sum_cons]
      push_cast
      ring

theorem sums_series (thisAge : (utcDay now).year ≤ 9999)
    (priced : ∀ intent ∈ intents, intent.Priced) :
    SumsByDay intents (windowDays now) (series .exact now intents) := by
  rw [SumsByDay, series_eq thisAge, List.map_map]
  refine List.map_congr_left fun day _ => ?_
  have ofDay : ∀ intent ∈ intents.filter fun intent => intent.createdOn = day, intent.Priced :=
    fun intent member => priced intent (List.mem_of_mem_filter member)
  have settled : ∀ intent ∈ (succeeded intents).filter fun intent => intent.createdOn = day,
      intent.Priced :=
    fun intent member => priced intent (List.mem_of_mem_filter (List.mem_of_mem_filter member))
  have same : succeeded (intents.filter fun intent => intent.createdOn = day) =
      (succeeded intents).filter fun intent => intent.createdOn = day := by
    rw [succeeded, succeeded, List.filter_filter, List.filter_filter]
    simp only [Bool.and_comm]
  have nothing : (⟨day.isoText, 0, "0"⟩ : SeriesDay).volume = Text.numberText 7 0 := rfl
  rw [Function.comp_apply, volume_foldl_addToDay ofDay nothing, Nat.zero_add,
    Text.decimalValue_numberText, same, sum_exactAmount settled]

end Series

/-! ## The partition -/

theorem partitions_windowDays {now : Nat} (thisAge : (utcDay now).year ≤ 9999)
    (intents : List PaymentIntent) :
    Partitions intents (windowDays now) (series .exact now intents) where
  dates := dates_series thisAge .exact
  datesDistinct := by
    rw [dates_series thisAge]
    exact nodup_dates thisAge
  counts := counts_series thisAge .exact
  total := by rw [counts_series thisAge, sum_counts (lastThirtyDays_windowDays now).distinct]

/-- Wherever an intent stands in the list, it adds one to the entry of its day, and nothing to
the others. -/
def CountsOnItsDay (now : Nat) (days : List CalendarDay) : Prop :=
  ∀ before intent after,
    (series .exact now (before ++ intent :: after)).map SeriesDay.count =
      List.zipWith (fun day entry => entry.count + if intent.createdOn = day then 1 else 0) days
        (series .exact now (before ++ after))

/-- At any time up to the year 9999 the series has an entry for each of the thirty calendar days
that end today, each intent is counted on the day of its creation only, and the volumes are the
exact sums. -/
theorem series_partitions {now : Nat} (thisAge : (utcDay now).year ≤ 9999) :
    ∃ days, LastThirtyDays now days ∧ CountsOnItsDay now days ∧
      ∀ intents, Partitions intents days (series .exact now intents) ∧
        ((∀ intent ∈ intents, intent.Priced) →
          SumsByDay intents days (series .exact now intents)) := by
  refine ⟨windowDays now, lastThirtyDays_windowDays now, ?_, fun intents =>
    ⟨partitions_windowDays thisAge intents, sums_series thisAge⟩⟩
  intro before intent after
  rw [counts_series thisAge, series_eq thisAge, List.zipWith_map_right, List.zipWith_self]
  refine List.map_congr_left fun day _ => ?_
  rw [countP_insert, (foldl_addToDay .exact _ _).2, Nat.zero_add, List.countP_eq_length_filter]

/-- Noon of the first of March 2000. -/
theorem series_partitions_of_march :
    ∃ days, LastThirtyDays 951912000000 days ∧ CountsOnItsDay 951912000000 days ∧
      ∀ intents, Partitions intents days (series .exact 951912000000 intents) ∧
        ((∀ intent ∈ intents, intent.Priced) →
          SumsByDay intents days (series .exact 951912000000 intents)) :=
  series_partitions (by decide +kernel)

/-! ## The series that the summary returns -/

section Returned

variable {days : List CalendarDay} {entries : List SeriesDay} {intents table : List PaymentIntent}

theorem Partitions.perm (partitions : Partitions intents days entries)
    (listed : intents.Perm table) : Partitions table days entries where
  dates := partitions.dates
  datesDistinct := partitions.datesDistinct
  counts := by
    rw [partitions.counts]
    exact List.map_congr_left fun day _ => listed.countP_eq _
  total := partitions.total.trans (listed.countP_eq _)

theorem SumsByDay.perm (sums : SumsByDay intents days entries) (listed : intents.Perm table) :
    SumsByDay table days entries := by
  refine Eq.trans sums (List.map_congr_left fun day _ => ?_)
  have settled : ((succeeded intents).filter fun intent => intent.createdOn = day).Perm
      ((succeeded table).filter fun intent => intent.createdOn = day) :=
    (listed.filter _).filter _
  rw [(settled.map PaymentIntent.exactAmount).sum_eq]

/-- In every reachable configuration the series of a summary splits the caller's intents by the
days of their creation. -/
theorem summary_splits_by_day {deployment : Deployment} {state : World}
    {config : Config (service deployment)} (start : state.store = .empty)
    (run : AdmittedRun (Config.initial state) config)
    (thisAge : (utcDay (World.clock config.state)).year ≤ 9999) {consumer : GatewayConsumer}
    {summary : Summary}
    (summarized : (Analytics.summary consumer).Returns (service deployment) config.state summary) :
    let table := (World.store config.state).intentsOf consumer.username (network consumer)
    ∃ days, LastThirtyDays (World.clock config.state) days ∧
      Partitions table days summary.series ∧ SumsByDay table days summary.series := by
  intro table
  obtain ⟨intents, ⟨listed, -⟩, rfl⟩ :=
    (returns_summary (parented_of_run run start)).mp summarized
  have priced : ∀ intent ∈ intents, intent.Priced := fun intent member =>
    priced_of_stored start run intent (List.mem_of_mem_filter (listed.mem_iff.mp member))
  exact ⟨windowDays (World.clock config.state), lastThirtyDays_windowDays _,
    (partitions_windowDays thisAge intents).perm listed,
    (sums_series thisAge priced).perm listed⟩

end Returned

end CosmosPay
