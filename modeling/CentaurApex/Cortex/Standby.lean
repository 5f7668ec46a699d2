/-
# Cortex.Standby -- a watcher that takes over

Two watchers with the same settings read the same lines, but not from the same line on: one was
restarted, or joined late.  Of a watcher the report of a line depends on its window alone, its
tracker aside (`Reported.agree`): the reading, the context, the latency.  And the windows come
together as any two do (`step_window`).

* `watchers_join`: after a line that can be used, and one report of a close more than the
  candles they keep, whatever both report of a line agrees but for the pullback.  The trackers
  need not agree, ever: a leg's direction is never given up.

Satisfiable pole `standby_takes_over`: a new watcher beside one with a leg.
-/
import CentaurApex.Cortex.ContextEngine

namespace CentaurApex.Cortex

open CentaurApex.Evolution (strip)
open CentaurApex.Theory
open CentaurApex.Theory.ExtNum (fin)
open CentaurApex.Theory.Python

set_option autoImplicit false

/-! ## What a line says, whoever reads it -/

/-- The tick of a line, if there is one: its time is not too large for the timeframe. -/
def Line.tick (lib : JsonLibrary) (settings : WatcherSettings) (line : Line) : Option PriceTick :=
  if strip line.text = [] then none
  else
    match lib.loads (strip line.text) with
    | .value (.obj fields) =>
        match toFloat lib.ofText (get fields "price" .null),
          toFloat lib.ofText (get fields "timestamp" .null) with
        | .ok price, .ok ts =>
            if price.IsFinite ∧ EventWatcher.Overflows settings ts then none else some (price, ts)
        | _, _ => none
    | _ => none

section Tick

variable {lib : JsonLibrary} {settings : WatcherSettings} {line : Line} {price ts : ExtNum ℚ}

theorem Line.tick_of_reads (reads : line.Reads lib price ts) :
    line.tick lib settings =
      if price.IsFinite ∧ EventWatcher.Overflows settings ts then none else some (price, ts) := by
  obtain ⟨ink, fields, loaded, priced, timed⟩ := reads
  unfold Line.tick
  rw [if_neg ink]
  simp only [loaded, priced, timed]

theorem Line.reads_of_tick (read : line.tick lib settings = some (price, ts)) :
    line.Reads lib price ts := by
  unfold Line.tick at read
  split at read
  · cases read
  · rename_i ink
    split at read
    · rename_i fields loaded
      split at read
      · rename_i priced timed
        split at read
        · cases read
        · cases read
          exact ⟨ink, fields, loaded, priced, timed⟩
      · cases read
    · cases read

theorem Line.tick_none (unread : ¬ ∃ price ts, line.Reads lib price ts) :
    line.tick lib settings = none := by
  cases here : line.tick lib settings with
  | none => rfl
  | some tick => exact absurd ⟨tick.1, tick.2, Line.reads_of_tick here⟩ unread

end Tick

/-- A price that counts has to have a time. -/
theorem CandleAggregator.feed_timeless {agg : CandleAggregator} (moves : agg.timeframe ≠ 0)
    {price : ℚ} (positive : 0 < price) {ts : ExtNum ℚ} (timeless : ¬ ts.IsFinite) :
    ∃ e, agg.feed (fin price) ts = .error e := by
  have raised : ∃ e, agg.bucket ts = .error e := by
    unfold bucket
    rw [if_neg moves]
    cases ts with
    | fin ts => exact absurd trivial timeless
    | nan | posInf | negInf => exact ⟨_, rfl⟩
  obtain ⟨e, raised⟩ := raised
  exact ⟨e, by simp only [feed, if_neg (not_le.mpr positive), raised]⟩

namespace EventWatcher

variable (lib : JsonLibrary) (settings : WatcherSettings)

def window (w : EventWatcher) : CandleWindow := ⟨w.aggregator, w.candles⟩

/-- A watcher and its lines. -/
def machine : Machine EventWatcher Line (Except Raised (Option WatchReport)) where
  step w line :=
    match WatchRun.watch lib settings w line with
    | .ok (report, w) => (.ok report, w)
    | .error e => (.error e, w)

/-- What is reported is that a candle closed. -/
def closes : Except Raised (Option WatchReport) → Bool
  | .ok (some report) => report.phase = .close
  | _ => false

/-! ## What a report says of a history -/

/-- The reading of a history, with whatever the tracker had to add. -/
structure Reading (line : Line) (candles : List Candle) (phase : ReportPhase) (latencyMs : Double)
    (previewPrice : Option ℚ) (r : WatchReport) : Prop where
  context : r.context = (contextOf settings candles).1
  analyzed : ∃ report,
    settings.engine.analyze lib.ofText candles (contextOf settings candles).2 line.levels =
      .ok report ∧ r.report = mergePullback report r.transition
  phase : r.phase = phase
  firedAt : r.firedAt = line.firedAt
  latencyMs : r.latencyMs = latencyMs
  previewPrice : r.previewPrice = previewPrice

/-- What a watcher reports of a tick: a candle that closed, or the one being formed. -/
inductive Reported (line : Line) (price ts : ExtNum ℚ) (s : CandleWindow) (r : WatchReport) : Prop
  | close {closed : Candle} {fed : CandleAggregator}
      (taken : s.aggregator.feed price ts = .ok (some closed, fed))
      (reading :
        Reading lib settings line (lastN settings.maxCandles (s.candles ++ [closed])) .close
          (EventWatcher.latencyMs line closed) none r)
  | rt {forming : Candle} {fed : CandleAggregator}
      (taken : s.aggregator.feed price ts = .ok (none, fed))
      (found : fed.forming ts = .ok (some forming))
      (reading : Reading lib settings line (s.candles ++ [forming]) .rt (fin 0)
        (some forming.close) r)

/-- What two reports say is the same, but for the pullback. -/
structure AgreeBut (r r' : WatchReport) : Prop where
  report : ∃ report, r.report = mergePullback report r.transition ∧
    r'.report = mergePullback report r'.transition
  context : r.context = r'.context
  phase : r.phase = r'.phase
  firedAt : r.firedAt = r'.firedAt
  latencyMs : r.latencyMs = r'.latencyMs
  previewPrice : r.previewPrice = r'.previewPrice

section Agree

variable {lib settings} {line : Line} {r r' : WatchReport}

theorem Reading.agree {candles : List Candle} {phase : ReportPhase} {latencyMs : Double}
    {previewPrice : Option ℚ}
    (reading : Reading lib settings line candles phase latencyMs previewPrice r)
    (reading' : Reading lib settings line candles phase latencyMs previewPrice r') :
    AgreeBut r r' := by
  have context := reading.context.trans reading'.context.symm
  obtain ⟨report, analyzed, merged⟩ := reading.analyzed
  obtain ⟨report', analyzed', merged'⟩ := reading'.analyzed
  rw [analyzed'] at analyzed
  obtain rfl := Except.ok.inj analyzed
  exact ⟨⟨report', merged, merged'⟩, context, reading.phase.trans reading'.phase.symm,
    reading.firedAt.trans reading'.firedAt.symm, reading.latencyMs.trans reading'.latencyMs.symm,
    reading.previewPrice.trans reading'.previewPrice.symm⟩

/-- **Of one window, one report**, the tracker aside. -/
theorem Reported.agree {price ts : ExtNum ℚ} {s : CandleWindow}
    (reported : Reported lib settings line price ts s r)
    (reported' : Reported lib settings line price ts s r') : AgreeBut r r' := by
  cases reported with
  | close taken reading =>
      cases reported' with
      | close taken' reading' =>
          rw [taken] at taken'
          cases taken'
          exact reading.agree reading'
      | rt taken' =>
          rw [taken] at taken'
          cases taken'
  | rt taken found reading =>
      cases reported' with
      | close taken' =>
          rw [taken] at taken'
          cases taken'
      | rt taken' found' reading' =>
          rw [taken] at taken'
          cases taken'
          rw [found] at found'
          cases found'
          exact reading.agree reading'

end Agree

/-! ## What a line does to a watcher -/

section Took

variable {lib settings} {line : Line} {w w' : EventWatcher} {price ts : ExtNum ℚ}

theorem observe_reading {candles : List Candle} {last : Candle} {phase : ReportPhase}
    {latencyMs : Double} {previewPrice : Option ℚ} {r : WatchReport}
    (observed :
      observe lib settings w line candles last phase latencyMs previewPrice = .ok (r, w')) :
    Reading lib settings line candles phase latencyMs previewPrice r ∧ w'.window = w.window ∧
      w'.pullback = taken settings w.pullback candles last := by
  unfold observe at observed
  dsimp only at observed
  cases analyzed : settings.engine.analyze lib.ofText candles
      (contextOf settings candles).2 line.levels with
  | error e =>
      rw [analyzed] at observed
      cases observed
  | ok report =>
      rw [analyzed] at observed
      cases observed
      exact ⟨⟨rfl, ⟨report, analyzed, rfl⟩, rfl, rfl, rfl, rfl⟩, rfl, rfl⟩

/-- Everything a tick can do to a watcher that takes it. -/
inductive Took (lib : JsonLibrary) (settings : WatcherSettings) (w : EventWatcher) (line : Line)
    (price ts : ExtNum ℚ) : Option WatchReport × EventWatcher → Prop
  | passed (unpriced : ¬ fin 0 < price) : Took lib settings w line price ts (none, w)
  | closed {c : Candle} {fed : CandleAggregator} {r : WatchReport} {w' : EventWatcher}
      (taken : w.aggregator.feed price ts = .ok (some c, fed))
      (reported : Reported lib settings line price ts w.window r) (phase : r.phase = .close)
      (window : w'.window = ⟨fed, lastN settings.maxCandles (w.candles ++ [c])⟩)
      (pullback :
        ∃ candles last, w'.pullback = EventWatcher.taken settings w.pullback candles last) :
      Took lib settings w line price ts (some r, w')
  | within {fed : CandleAggregator} {report : Option WatchReport} {w' : EventWatcher}
      (taken : w.aggregator.feed price ts = .ok (none, fed))
      (reported : ∀ r ∈ report, Reported lib settings line price ts w.window r ∧ r.phase = .rt)
      (window : w'.window = ⟨fed, w.candles⟩)
      (pullback : w'.pullback = w.pullback ∨
        ∃ candles last, w'.pullback = EventWatcher.taken settings w.pullback candles last) :
      Took lib settings w line price ts (report, w')

theorem strike_took {fed : CandleAggregator} {report : Option WatchReport}
    (taken : w.aggregator.feed price ts = .ok (none, fed))
    (struck : strike lib settings { w with aggregator := fed } line ts = .ok (report, w')) :
    Took lib settings w line price ts (report, w') := by
  unfold strike at struck
  by_cases due : RtDue settings { w with aggregator := fed } line
  · rw [if_pos due] at struck
    unfold analyzeRt at struck
    cases found : rtCandle settings
        { w with aggregator := fed, lastRtAt := line.tickNow } ts with
    | error e =>
        rw [found] at struck
        cases struck
    | ok candle =>
        rw [found] at struck
        cases candle with
        | none =>
            cases struck
            exact .within taken (fun _ none_ => by cases none_) rfl (.inl rfl)
        | some forming =>
            dsimp only at struck
            cases observed : observe lib settings
                { w with aggregator := fed, lastRtAt := line.tickNow } line (w.candles ++ [forming])
                forming .rt (fin 0) (some forming.close) with
            | error e =>
                rw [observed] at struck
                cases struck
            | ok read =>
                obtain ⟨r, w''⟩ := read
                obtain ⟨reading, window, pullback⟩ := observe_reading observed
                have here : fed.forming ts = .ok (some forming) := by
                  unfold rtCandle at found
                  split at found
                  · cases found
                  · split at found
                    · cases found
                    · exact found
                rw [observed] at struck
                change (if some r.signature ≠ w''.lastRtSig then
                  (.ok (some r, { w'' with lastRtSig := some r.signature }) : Except Raised _)
                  else .ok (none, w'')) = .ok (report, w') at struck
                split at struck
                · cases struck
                  refine .within taken (fun r' here' => ?_) window (.inr ⟨_, _, pullback⟩)
                  obtain rfl := Option.some.inj here'
                  exact ⟨.rt taken here reading, reading.phase⟩
                · cases struck
                  exact .within taken (fun _ none_ => by cases none_) window
                    (.inr ⟨_, _, pullback⟩)
  · rw [if_neg due] at struck
    cases struck
    exact .within taken (fun _ none_ => by cases none_) rfl (.inl rfl)

theorem takeTick_took (near : ¬ (price.IsFinite ∧ Overflows settings ts))
    {report : Option WatchReport}
    (done : takeTick lib settings w line price ts = .ok (report, w')) :
    Took lib settings w line price ts (report, w') := by
  unfold takeTick at done
  by_cases unpriced : ¬ fin 0 < price
  · rw [if_pos unpriced] at done
    cases done
    exact .passed unpriced
  rw [if_neg unpriced, feed_near near] at done
  cases taken : w.aggregator.feed price ts with
  | error e =>
      rw [taken] at done
      cases done
  | ok fed =>
      obtain ⟨closed, fed⟩ := fed
      rw [taken] at done
      cases closed with
      | none => exact strike_took taken done
      | some closed =>
          dsimp only at done
          cases analyzed : analyzeClosed lib settings { w with
              aggregator := fed
              candles := lastN settings.maxCandles (w.candles ++ [closed]) } line with
          | error e =>
              rw [analyzed] at done
              cases done
          | ok read =>
              obtain ⟨r, w''⟩ := read
              rw [analyzed] at done
              cases done
              have some_ := settings.maxCandles_pos
              have newest : (lastN settings.maxCandles (w.candles ++ [closed])).getLast? =
                  some closed := by
                rw [lastN_concat some_, List.getLast?_concat]
              unfold analyzeClosed at analyzed
              dsimp only at analyzed
              rw [newest] at analyzed
              obtain ⟨reading, window, pullback⟩ := observe_reading analyzed
              exact .closed taken (.close taken reading) reading.phase window ⟨_, _, pullback⟩

/-- A tick that raises is none the window takes. -/
theorem takeTick_raised (sound : Sound settings w)
    (near : ¬ (price.IsFinite ∧ Overflows settings ts)) {e : Raised}
    (raised : takeTick lib settings w line price ts = .error e) :
    (CandleWindow.machine settings.maxCandles).step w.window (some (price, ts)) =
      (none, w.window) := by
  have positive : fin 0 < price := by
    by_contra unpriced
    rw [takeTick_unpriced unpriced] at raised
    cases raised
  cases price with
  | negInf => exact positive.elim
  | nan => exact absurd positive (ExtNum.not_lt_nan _)
  | posInf => exact CandleWindow.step_within _ (s := w.window) (.posInf, ts) rfl
  | fin price =>
      have positive := ExtNum.fin_lt_fin.mp positive
      cases taken : w.aggregator.feed (fin price) ts with
      | error e => exact CandleWindow.step_raises _ (s := w.window) (fin price, ts) taken
      | ok fed =>
          exfalso
          have timed : ts.IsFinite := by
            by_contra timeless
            have moves : w.aggregator.timeframe ≠ 0 := by
              rw [sound.timeframe]
              exact settings.timeframe_pos.ne'
            obtain ⟨e, timed⟩ := CandleAggregator.feed_timeless moves positive timeless
            rw [taken] at timed
            cases timed
          obtain ⟨ts, rfl⟩ := ExtNum.isFinite_iff.mp timed
          obtain ⟨read, done⟩ := takeTick_usable lib sound positive
            (fun far => near ⟨trivial, far⟩) line
          rw [raised] at done
          cases done

/-- A leg's direction is never given up. -/
theorem taken_direction {t : PullbackTracker} (leg : t.direction ≠ .none_) (candles : List Candle)
    (last : Candle) : (taken settings t candles last).direction = t.direction := by
  unfold taken
  by_cases pos : (contextOf settings candles).2 ≤ 0
  · rw [PullbackTracker.update, if_pos pos]
  · rw [PullbackTracker.update_eq leg last pos]
    exact (PullbackTracker.advance_advanced _ _ _).direction

theorem Took.direction {out : Option WatchReport × EventWatcher}
    (took : Took lib settings w line price ts out) (leg : w.pullback.direction ≠ .none_) :
    out.2.pullback.direction = w.pullback.direction := by
  cases took with
  | passed => rfl
  | closed _ _ _ _ pullback =>
      obtain ⟨candles, last, moved⟩ := pullback
      exact moved ▸ taken_direction leg candles last
  | within _ _ _ pullback =>
      rcases pullback with still | ⟨candles, last, moved⟩
      · exact congrArg PullbackTracker.direction still
      · exact moved ▸ taken_direction leg candles last

theorem Took.window {out : Option WatchReport × EventWatcher}
    (took : Took lib settings w line price ts out) :
    let seen := (CandleWindow.machine settings.maxCandles).step w.window (some (price, ts))
    closes (.ok out.1) = seen.1.isSome ∧ out.2.window = seen.2 := by
  cases took with
  | passed unpriced =>
      have passed : w.window.aggregator.feed price ts = .ok (none, w.window.aggregator) := by
        cases price with
        | fin price => exact if_pos (not_lt.mp (mt ExtNum.fin_lt_fin.mpr unpriced))
        | _ => rfl
      have step := CandleWindow.step_within settings.maxCandles (price, ts) passed
      exact ⟨congrArg (fun out => out.1.isSome) step.symm, congrArg Prod.snd step.symm⟩
  | closed taken reported phase window =>
      have step := CandleWindow.step_closes settings.maxCandles (s := w.window) (price, ts) taken
      dsimp only
      rw [step]
      exact ⟨by rw [closes, phase]; rfl, window⟩
  | @within fed report w' taken reported window =>
      have step := CandleWindow.step_within settings.maxCandles (s := w.window) (price, ts) taken
      dsimp only
      rw [step]
      refine ⟨?_, window⟩
      cases report with
      | none => rfl
      | some r =>
          rw [closes, (reported r rfl).2]
          rfl

end Took

/-! ## Lines -/

section Lines

variable {lib settings} {line : Line} {w w' : EventWatcher}

/-- A line is a tick, or is none to any watcher. -/
theorem watch_cases (lib : JsonLibrary) (settings : WatcherSettings) (w : EventWatcher)
    (line : Line) :
    (∃ price ts, line.tick lib settings = some (price, ts) ∧
      ¬ (price.IsFinite ∧ Overflows settings ts) ∧
      WatchRun.watch lib settings w line = takeTick lib settings w line price ts) ∨
    line.tick lib settings = none ∧ (WatchRun.watch lib settings w line = .ok (none, w) ∨
      ∃ e, WatchRun.watch lib settings w line = .error e) := by
  by_cases reads : ∃ price ts, line.Reads lib price ts
  · obtain ⟨price, ts, reads⟩ := reads
    rw [Line.tick_of_reads reads, watch_reads reads w]
    by_cases far : price.IsFinite ∧ Overflows settings ts
    · refine .inr ⟨if_pos far, ?_⟩
      by_cases positive : fin 0 < price
      · obtain ⟨price, rfl⟩ := ExtNum.isFinite_iff.mp far.1
        exact .inr ⟨_, takeTick_far (ExtNum.fin_lt_fin.mp positive) far.2 w line⟩
      · exact .inl (takeTick_unpriced positive w line ts)
    · exact .inl ⟨price, ts, if_neg far, far, rfl⟩
  · refine .inr ⟨Line.tick_none reads, ?_⟩
    by_cases skipped : line.Skipped lib
    · exact .inl (watch_skipped skipped w)
    · exact .inr (watch_other settings skipped reads w)

/-- **A line moves a watcher's window** as its tick does. -/
theorem step_window (sound : Sound settings w) (line : Line) :
    let out := (machine lib settings).step w line
    let seen := (CandleWindow.machine settings.maxCandles).step w.window (line.tick lib settings)
    closes out.1 = seen.1.isSome ∧ out.2.window = seen.2 := by
  dsimp only [machine]
  rcases watch_cases lib settings w line with
    ⟨price, ts, tick, near, watched⟩ | ⟨tick, skipped | ⟨e, raised⟩⟩
  · rw [tick, watched]
    cases done : takeTick lib settings w line price ts with
    | ok read => exact (takeTick_took near done).window
    | error e =>
        rw [takeTick_raised sound near done]
        exact ⟨rfl, rfl⟩
  · rw [tick, skipped]
    exact ⟨rfl, rfl⟩
  · rw [tick, raised]
    exact ⟨rfl, rfl⟩

theorem step_sound (sound : Sound settings w) (line : Line) :
    Sound settings ((machine lib settings).step w line).2 := by
  dsimp only [machine]
  cases watched : WatchRun.watch lib settings w line with
  | ok read => exact (watch_fine sound watched).watcher
  | error e => exact sound

theorem step_direction (leg : w.pullback.direction ≠ .none_) (line : Line) :
    ((machine lib settings).step w line).2.pullback.direction = w.pullback.direction := by
  dsimp only [machine]
  rcases watch_cases lib settings w line with
    ⟨price, ts, tick, near, watched⟩ | ⟨tick, skipped | ⟨e, raised⟩⟩
  · rw [watched]
    cases done : takeTick lib settings w line price ts with
    | ok read => exact (takeTick_took near done).direction leg
    | error e => rfl
  · rw [skipped]
  · rw [raised]

/-- **Watchers with one window** report one thing, their trackers aside. -/
theorem watch_agree (same : w.window = w'.window) {r r' : WatchReport} {v v' : EventWatcher}
    (watched : WatchRun.watch lib settings w line = .ok (some r, v))
    (watched' : WatchRun.watch lib settings w' line = .ok (some r', v')) : AgreeBut r r' := by
  have reported {w v : EventWatcher} {r : WatchReport}
      (watched : WatchRun.watch lib settings w line = .ok (some r, v)) :
      ∃ price ts, line.tick lib settings = some (price, ts) ∧
        Reported lib settings line price ts w.window r := by
    rcases watch_cases lib settings w line with
      ⟨price, ts, tick, near, took⟩ | ⟨tick, skipped | ⟨e, raised⟩⟩
    · rw [took] at watched
      refine ⟨price, ts, tick, ?_⟩
      cases takeTick_took near watched with
      | closed taken reported => exact reported
      | within taken reported => exact (reported r rfl).1
    · rw [skipped] at watched
      cases watched
    · rw [raised] at watched
      cases watched
  obtain ⟨price, ts, tick, one⟩ := reported watched
  obtain ⟨price', ts', tick', other⟩ := reported watched'
  rw [tick] at tick'
  cases tick'
  exact (same ▸ one).agree other

end Lines

/-! ## Runs -/

section Runs

open WatchRun

variable {lib settings} {heartbeatS : ExtNum ℚ} {s s' t t' : WatchRun}

/-- The watcher of a run that survives is that of its lines. -/
theorem run_watcher {lines : List Line} (done : run lib settings heartbeatS s lines = .ok t) :
    t.watcher = (machine lib settings).run s.watcher lines := by
  induction lines generalizing s with
  | nil =>
      cases done
      rfl
  | cons line lines ih =>
      rw [WatchRun.run] at done
      cases consumed : consume lib settings heartbeatS s line with
      | error e =>
          rw [consumed] at done
          cases done
      | ok next =>
          obtain ⟨read, watched, after⟩ := consume_watcher consumed
          rw [consumed] at done
          rw [ih done, after, Machine.run]
          simp only [machine, watched]

/-- A tick of a run was near enough to be taken. -/
theorem run_tick {first : Line} {lines : List Line}
    (done : run lib settings heartbeatS s (first :: lines) = .ok t) {price ts : ℚ}
    (reads : first.Reads lib (fin price) (fin ts)) (positive : 0 < price) :
    first.tick lib settings = some (fin price, fin ts) := by
  rw [Line.tick_of_reads reads, if_neg]
  rintro ⟨-, far⟩
  have raised : watch lib settings s.watcher first = .error (.error .overflowError) :=
    (watch_reads reads s.watcher).trans (takeTick_far positive far s.watcher first)
  rw [WatchRun.run, consume_error raised] at done
  cases done

theorem run_window (w : EventWatcher) (sound : Sound settings w) (lines : List Line) :
    ((machine lib settings).trace w lines).map (fun e => closes e.reply) =
        ((CandleWindow.machine settings.maxCandles).trace w.window
          (lines.map (Line.tick lib settings))).map (fun e => e.reply.isSome) ∧
      ((machine lib settings).run w lines).window =
        (CandleWindow.machine settings.maxCandles).run w.window
          (lines.map (Line.tick lib settings)) :=
  (machine lib settings).run_project (CandleWindow.machine settings.maxCandles) window
    (Line.tick lib settings) closes Option.isSome (P := Sound settings)
    (fun _ line sound => step_sound sound line) (fun _ line sound => step_window sound line)
    sound lines

theorem run_direction {w : EventWatcher} (leg : w.pullback.direction ≠ .none_) (lines : List Line) :
    ((machine lib settings).run w lines).pullback.direction = w.pullback.direction :=
  (machine lib settings).run_invariant
    (P := fun v => v.pullback.direction = w.pullback.direction)
    (fun _ line same => (step_direction (same ▸ leg) line).trans same) rfl lines

/-- **A watcher that takes over.**  Two runs on the same lines, from whatever they had, have the
same window after a line that can be used and one report of a close more than the candles they
keep; and what both then report of a line agrees but for the pullback.  Of that they need not ever
agree: legs that had opposite directions still have them. -/
theorem watchers_join (good : Good settings s) (good' : Good settings s') {first : Line}
    (usable : first.Usable lib) {lines : List Line}
    (done : run lib settings heartbeatS s (first :: lines) = .ok t)
    (done' : run lib settings heartbeatS s' (first :: lines) = .ok t')
    (many : settings.maxCandles < closings closes ((machine lib settings).trace
      ((machine lib settings).step s.watcher first).2 lines)) :
    t.watcher.window = t'.watcher.window ∧
    (∀ line r r' v v', watch lib settings t.watcher line = .ok (some r, v) →
      watch lib settings t'.watcher line = .ok (some r', v') → AgreeBut r r') ∧
    (s.watcher.pullback.direction = .up → s'.watcher.pullback.direction = .down →
      t.watcher.pullback.direction = .up ∧ t'.watcher.pullback.direction = .down) := by
  obtain ⟨price, ts, reads, positive⟩ := usable
  have here := run_tick done reads positive
  have same : t.watcher.window = t'.watcher.window := by
    have pos := settings.timeframe_pos
    rw [← good.watcher.timeframe] at pos
    rw [closings, (run_window _ (step_sound good.watcher first) lines).1,
      (step_window good.watcher first).2, here] at many
    rw [run_watcher done, run_watcher done', (run_window _ good.watcher _).2,
      (run_window _ good'.watcher _).2, List.map_cons, here]
    exact CandleWindow.windows_join
      (good.watcher.timeframe.trans good'.watcher.timeframe.symm) pos good.watcher.few
      good'.watcher.few positive ts _ many
  refine ⟨same, fun line r r' v v' watched watched' => watch_agree same watched watched', ?_⟩
  intro up down
  rw [run_watcher done, run_watcher done']
  have leg : s.watcher.pullback.direction ≠ .none_ := by simp [up]
  have leg' : s'.watcher.pullback.direction ≠ .none_ := by simp [down]
  exact ⟨(run_direction leg _).trans up, (run_direction leg' _).trans down⟩

end Runs

/-- A library that takes the strokes of a line for the bucket of a price. -/
def strokeLibrary : JsonLibrary where
  loads text := .value (.obj [("price", .int 1), ("timestamp", .int (text.length * 300))])
  ofText _ := none
  repr := fiveLibrary.repr
  repr_number := fiveLibrary.repr_number

def strokes (n : ℕ) : Line := ⟨List.replicate n '|', 0, 0, 0, 0, 0, []⟩

/-- A watcher that keeps one candle. -/
def briefSettings : WatcherSettings :=
  { watcherSettings with maxCandles := 1, maxCandles_pos := le_rfl, maxCandles_lt := by decide }

/-- A run whose tracker has a leg, and whose candle is its own. -/
def legged (direction : Direction) (candle : Candle) : WatchRun :=
  ⟨⟨.new 300, [candle], { PullbackTracker.default_ with direction }, 0, none⟩, 0, []⟩

theorem legged_good (direction : Direction) (candle : Candle) :
    Good briefSettings (legged direction candle) :=
  ⟨⟨rfl, le_rfl, ⟨Nat.zero_le _⟩⟩, fun _ none_ => absurd none_ List.not_mem_nil⟩

theorem of_isOk {α : Type} {x : Except Raised α} (ok : x.isOk = true) : ∃ a, x = .ok a := by
  cases x with
  | ok a => exact ⟨a, rfl⟩
  | error e => cases ok

/-- Satisfiable pole: two watchers with other candles, and legs the other way around. -/
theorem standby_takes_over :
    ∃ t t', WatchRun.run strokeLibrary briefSettings (fin 10) (legged .up ⟨1, 1, 1, 1, 0, 1, 1⟩)
        [strokes 1, strokes 2, strokes 3] = .ok t ∧
      WatchRun.run strokeLibrary briefSettings (fin 10) (legged .down ⟨2, 2, 2, 2, 0, 1, 1⟩)
        [strokes 1, strokes 2, strokes 3] = .ok t' ∧
      t.watcher.window = t'.watcher.window ∧ t.watcher.pullback.direction = .up ∧
        t'.watcher.pullback.direction = .down := by
  have usable : (strokes 1).Usable strokeLibrary := by
    have read : (strokes 1).tick strokeLibrary briefSettings = some (fin 1, fin 300) := by
      decide +kernel
    exact ⟨1, 300, Line.reads_of_tick read, one_pos⟩
  obtain ⟨t, done⟩ := of_isOk (x := WatchRun.run strokeLibrary briefSettings (fin 10)
    (legged .up ⟨1, 1, 1, 1, 0, 1, 1⟩) [strokes 1, strokes 2, strokes 3]) (by decide +kernel)
  obtain ⟨t', done'⟩ := of_isOk (x := WatchRun.run strokeLibrary briefSettings (fin 10)
    (legged .down ⟨2, 2, 2, 2, 0, 1, 1⟩) [strokes 1, strokes 2, strokes 3]) (by decide +kernel)
  have many : 1 < closings closes ((machine strokeLibrary briefSettings).trace
      ((machine strokeLibrary briefSettings).step
        (legged .up ⟨1, 1, 1, 1, 0, 1, 1⟩).watcher (strokes 1)).2 [strokes 2, strokes 3]) := by
    decide +kernel
  obtain ⟨same, -, legs⟩ := watchers_join (legged_good _ _) (legged_good _ _)
    usable done done' many
  exact ⟨t, t', done, done', same, legs rfl rfl⟩

end EventWatcher

end CentaurApex.Cortex
