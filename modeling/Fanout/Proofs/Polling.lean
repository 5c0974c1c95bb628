import Fanout.Program
import Fanout.Proofs.Decision
import Fanout.Proofs.Results

/-!
# What a run reports

A run hands one request in and then asks for its report until that is complete,
with a pause after each time. The pauses move the clock, so before long the
deadline of the collation has come, and the report is complete. A run can miss
it nevertheless: the collation may be complete for a retention time before the
run asks again, and then it may have been swept.
-/

namespace Fanout

open Engine (Held)

namespace Rehearsal

/-! ## Asking -/

section

variable {config : EngineConfig} {entries : List (Node × Connectivity)}
  {sub : Submission} {handle : Handle} {deadline touched : Instant}
  {s : Rehearsal}

/-- Asking for the report leaves the rehearsal calm. -/
theorem Calm.ask (hs : Calm config entries s)
    (h : Held config entries sub handle deadline touched s.engine) :
    Calm config entries (s.enter (s.engine.find sub.id).1) ∧
      (s.enter (s.engine.find sub.id).1).engine = (s.engine.find sub.id).1 := by
  have hfound := h.found
  obtain ⟨hcalm, harranged⟩ := hs.enter hfound.rehearsed fun hjobs => by
    rw [hfound.jobs]
    exact hjobs
  exact ⟨hcalm, harranged.engine⟩

end

end Rehearsal

namespace Errand

open Rehearsal (Calm Decided)

/-! ## Asking until it is complete -/

/-- How the wait for a report ends: it is complete, and it is found, or else a
retention time has gone by since the run asked for it last. -/
structure Awaited (config : EngineConfig) (entries : List (Node × Connectivity))
    (sub : Submission) (handle : Handle) (pause : Span) (s : Rehearsal)
    (finding : Finding) : Prop where
  calm : Calm config entries s
  alone : s.engine.Alone sub handle
  finding : ∃ c, s.engine.registry.collation? handle = some c ∧
    c.isComplete = true ∧
      (finding = .complete c.view ∨ finding = .gone ∧
        .purging sub.id ∈ s.engine.journal ∧
      ∃ completed asked, c.completedAt = some completed ∧
        config.registry.retention.nanos ≤ s.now - completed ∧
        asked + config.registry.retention.nanos ≤ s.now ∧
        s.now ≤ Instant.timer asked pause)

section

variable {config : EngineConfig} {entries : List (Node × Connectivity)}
  {sub : Submission} {handle : Handle} {deadline : Instant} {pause : Span}

/-- By its deadline the report is complete, so it is enough to look once more
than there are moments until then. -/
theorem awaited (hpause : 0 < pause.nanos) : ∀ (looks : Nat) {touched : Instant}
    {s : Rehearsal}, Calm config entries s →
    Held config entries sub handle deadline touched s.engine →
    s.now ≤ Instant.timer touched pause → deadline - s.now + 1 < looks →
    Awaited config entries sub handle pause (awaitReport sub.id pause looks s).1
      (awaitReport sub.id pause looks s).2
  | 0, _, _, _, _, _, hlooks => absurd hlooks (Nat.not_lt_zero _)
  | looks + 1, touched, s, hs, hheld, hpaused, hlooks => by
    have hfound := hheld.found
    obtain ⟨hcalm, hengine⟩ := hs.ask hheld
    obtain ⟨e, finding, hfind⟩ :
        ∃ e finding, s.engine.find sub.id = (e, finding) :=
      ⟨_, _, rfl⟩
    rw [awaitReport, hfind]
    rw [hfind] at hfound hcalm hengine
    dsimp only at hfound hcalm hengine ⊢
    generalize s.enter e = asked at hcalm hengine ⊢
    subst hengine
    have hnow : asked.now = s.now := hfound.now
    cases finding with
    | gone =>
        obtain ⟨hlong, ⟨c, completed, hc, hcompleted, hsince⟩, htold⟩ :=
          hfound.finding
        refine ⟨hcalm, hfound.alone, c, hc,
          Collation.isComplete_of_completedAt hcompleted,
          Or.inr ⟨rfl, htold, completed, touched, hcompleted, hsince,
            hlong, ?_⟩⟩
        rw [hnow]
        exact hpaused
    | complete report =>
        obtain ⟨c, hc, hcomplete, rfl⟩ := hfound.finding
        exact ⟨hcalm, hfound.alone, c, hc, hcomplete, Or.inl rfl⟩
    | incomplete report =>
        obtain ⟨hagain, hlt⟩ := hfound.finding
        have hknown : ¬ asked.plans.any Behaviour.isGuess = true := by
          rw [Bool.not_eq_true, List.any_eq_false]
          intro plan hplan
          rw [hcalm.plans plan hplan]
          exact Bool.false_ne_true
        dsimp only
        rw [if_neg hknown]
        have hslept := (hcalm.tell [.answered sub.id report.answers.length
          (report.answers.length + report.pending.length)]).sleep hpause
        have hheld' :=
          hslept.enacts.held (fun _ _ => Engine.Asleep.isOutside)
            (hagain.tell _)
        -- The deadline is still to come and the pause moves the clock, so there
        -- is now a moment less until then, and one look less is enough.
        have hmoved : s.now < Instant.timer asked.now pause := by
          rw [← hnow]
          exact Instant.lt_timer asked.now hpause
        have hfewer : ∀ {deadline now next looks : Nat}, now < deadline →
            now < next → deadline - now + 1 < looks + 1 →
            deadline - next + 1 < looks := by
          intro deadline now next looks
          omega
        refine awaited hpause looks hslept.calm hheld' ?_ ?_
        · rw [hslept.now]
          show Instant.timer asked.now pause ≤ _
          rw [hnow]
          exact Nat.le_refl _
        · rw [hslept.now]
          exact hfewer hlt hmoved hlooks

end

/-! ## Carrying an errand out -/

theorem calm_rehearsal (e : Errand) {world : World}
    (hknown : ∀ place r, (world.network place r).isSome) :
    Calm e.settings.engineConfig e.members (e.rehearsal world) where
  rehearsed := (Engine.rehearsed_start _ _).tell _
  watched := rfl
  tasks _ h := nomatch h
  known place c := Script.isGuess_ofNetwork hknown place c
  plans _ h := nomatch h

/-- Stopping the engine forgets no collation and nothing that was told. -/
theorem Awaited.shutDown {config : EngineConfig}
    {entries : List (Node × Connectivity)} {sub : Submission} {handle : Handle}
    {pause : Span} {s : Rehearsal} {finding : Finding}
    (h : Awaited config entries sub handle pause s finding) :
    s.shutDown.now = s.now ∧ s.shutDown.engine.submissions = [sub] ∧
      s.shutDown.engine.registry.collations = s.engine.registry.collations ∧
      s.engine.journal ⊆ s.shutDown.engine.journal := by
  have hidle : Calm config entries { s with sweeper := none } := h.calm.adjust
  obtain ⟨-, harranged⟩ := hidle.happen .shutDown rfl
  have hengine : s.shutDown.engine = s.engine.shutDown := harranged.engine
  rw [Rehearsal.now, Rehearsal.now, hengine, ← h.alone.only]
  unfold Engine.shutDown
  split
  · exact ⟨rfl, rfl, rfl, List.subset_append_left _ _⟩
  · exact ⟨rfl, rfl, rfl, List.subset_append_left _ _⟩

section

variable {entries : List (Node × Connectivity)} {target : Target}
  {request : Request} {s s' : Rehearsal} {sub sub' : Submission}
  {handle : Handle}

/-- If its request was accepted, an errand ends with what it finds at last. -/
theorem conclude_awaited (e : Errand) (hpause : 0 < e.pause.nanos)
    (hdecided : Decided e.settings.engineConfig entries target request s sub)
    (hphase : sub.phase = .accepted handle) :
    ∃ s' finding,
      Awaited e.settings.engineConfig entries sub handle e.pause s' finding ∧
      e.conclude 0 s = { Ending.ofFinding sub.id finding with
        rehearsal := some s'.shutDown } := by
  have hget : s.engine.submissions[0]? = some sub := by
    rw [hdecided.only]
    rfl
  have htold := hdecided.tell [.dispatched sub.id]
  simp only [conclude, hget, hphase]
  generalize { s with engine := s.engine.tell [.dispatched sub.id] } =
    told at htold ⊢
  exact ⟨_, _, awaited hpause (e.mostLooks told.now) htold.calm
    (htold.held handle hphase) (Nat.le_of_lt (Instant.lt_timer told.now hpause))
      (Nat.lt_succ_self _), rfl⟩

/-- Only an errand whose request was accepted leaves an accepted submission. -/
theorem accepted_of_conclude (e : Errand)
    (hdecided : Decided e.settings.engineConfig entries target request s sub)
    (hran : (e.conclude 0 s).rehearsal = some s')
    (hsub : s'.engine.submissions[0]? = some sub')
    (haccepted : sub'.phase = .accepted handle) :
    ∃ handle, sub.phase = .accepted handle := by
  have hget : s.engine.submissions[0]? = some sub := by
    rw [hdecided.only]
    rfl
  cases hphase : sub.phase with
  | accepted handle => exact ⟨handle, rfl⟩
  | verifying r =>
      simp only [conclude, hget, hphase] at hran
      cases hran
  | rejected fault =>
      simp only [conclude, hget, hphase] at hran
      cases hran
      rw [hget] at hsub
      cases hsub
      rw [hphase] at haccepted
      cases haccepted

end

theorem carryOut_awaited (e : Errand) {world : World}
    (hknown : ∀ place r, (world.network place r).isSome)
    (hpause : 0 < e.pause.nanos) {s : Rehearsal}
    (hran : (e.carryOut world).rehearsal = some s) {sub : Submission}
    {handle : Handle} (hsub : s.engine.submissions[0]? = some sub)
    (haccepted : sub.phase = .accepted handle) :
    (sub.target = e.target ∧ sub.request = e.request) ∧ ∃ s₁ finding,
      Awaited e.settings.engineConfig e.members sub handle e.pause s₁ finding ∧
        s = s₁.shutDown ∧
        e.carryOut world =
          { Ending.ofFinding sub.id finding with rehearsal := some s } := by
  obtain ⟨sub₁, hfirst, hdecided⟩ :=
    (e.calm_rehearsal hknown).replicate rfl e.target e.request
  unfold carryOut at hran ⊢
  split at hran
  · cases hran
  · next hpermits =>
      rw [if_neg hpermits]
      dsimp only at hran ⊢
      rw [hfirst] at hran ⊢
      obtain ⟨handle₁, hphase⟩ :=
        e.accepted_of_conclude hdecided hran hsub haccepted
      obtain ⟨s₁, finding, hawaited, hconcluded⟩ :=
        e.conclude_awaited hpause hdecided hphase
      rw [hconcluded] at hran ⊢
      cases hran
      obtain ⟨-, honly, -⟩ := hawaited.shutDown
      rw [honly] at hsub
      cases hsub
      rw [hphase] at haccepted
      cases haccepted
      exact ⟨hdecided.asks, s₁, finding, hawaited, rfl, rfl⟩

/-- Arguments always ask for a pause. -/
theorem pause_of_arguments {settings : Settings} {a : Arguments} {e : Errand}
    (h : ofArguments settings a = .ok e) :
    0 < e.pause.nanos ∧ e.settings = settings := by
  obtain ⟨nodes, -, h⟩ := ok_of_bind h
  obtain ⟨target, -, h⟩ := ok_of_bind h
  obtain ⟨request, -, h⟩ := ok_of_bind h
  cases h
  exact ⟨Nat.mul_pos (Nat.le_max_right _ _) (by decide), rfl⟩

end Errand

/-! ## Success -/

/-- A complete report is a success if every node that was waited for
succeeded. -/
theorem Collation.Sound.view_isSuccess_iff {c : Collation} (hc : c.Sound)
    (hcomplete : c.isComplete = true) :
    c.view.isSuccess = true ↔ ∀ n ∈ c.expected, ∃ answer, c.answer? n =
      some answer ∧ answer.failure = none ∧ 200 ≤ answer.status ∧
        answer.status < 300 := by
  have hview : c.report 0 = c.view := by rw [report, settle, if_pos hcomplete]
  have hdone : (c.report 0).complete = true := by
    rw [hview]
    exact hcomplete
  have hsuccess := Collation.report_isSuccess_iff hdone
  rw [hview] at hsuccess
  rw [hsuccess]
  constructor
  · intro hall n hn
    obtain ⟨answer, hanswer⟩ :=
      Option.isSome_iff_exists.1 (missing_eq_nil.1 (hc.full hcomplete) n hn)
    exact ⟨answer, hanswer, hall answer (List.mem_filterMap.2 ⟨n, hn, hanswer⟩)⟩
  · intro hall answer hmem
    obtain ⟨n, hn, hanswer⟩ := List.mem_filterMap.1 hmem
    obtain ⟨answer', hanswer', hgood⟩ := hall n hn
    rw [hanswer] at hanswer'
    cases hanswer'
    exact hgood

namespace World

/-! ## The whole run -/

/-- A run with an engine carries an errand out. -/
theorem carryOut_of_run {words : List String} {world : World} {s : Rehearsal}
    (h : (world.run words).rehearsal = some s) :
    ∃ a settings log errand, Arguments.read words world.environment = .ok a ∧
      a.settings world.files world.environment = .ok settings ∧
      Errand.ofArguments settings a = .ok errand ∧
      world.run words = { errand.carryOut world with
        log := some log, opening := openingNotices settings log } := by
  unfold run at h ⊢
  cases hread : Arguments.read words world.environment with
  | error refusal =>
      rw [hread] at h
      cases h
  | ok a =>
      rw [hread] at h
      dsimp only [runArguments] at h ⊢
      split at h
      · cases h
      · next settings log hlog =>
          obtain ⟨-, -, hlog⟩ := ok_of_bind hlog
          obtain ⟨settings', hsettings, hlog⟩ := ok_of_bind hlog
          obtain ⟨log', -, heq⟩ := ok_of_bind hlog
          cases heq
          dsimp only [runLogged] at h ⊢
          cases herrand : Errand.ofArguments settings a with
          | error complaint =>
              rw [herrand] at h
              cases h
          | ok errand => exact ⟨a, settings, log, errand, rfl, hsettings,
              herrand, rfl⟩

theorem Complaint.text_unavailable (id : String) :
    (Complaint.unavailable id).text =
      "Error: cluster response " ++ id ++ " is no longer available\n" := by
  show "Error: " ++ ("cluster response " ++ id ++ " is no longer available") ++
      "" ++ "\n" = _
  rw [String.append_empty, ← String.append_assoc, ← String.append_assoc,
    String.append_assoc]
  rfl

/-- If the request of a run is accepted, the run ends with the report complete,
and it has an answer of every node that the request was meant for. The run
prints just that report and succeeds if and only if every one of the answers is
a reply with a status that reports success. It misses the report only if the
report was purged, a retention time after it was complete, and a retention time
fits in one of the pauses; then the run prints nothing but the complaint that
the report is gone. The log shows the purge to those who asked for entries of
its level. -/
theorem final_report (words : List String) (world : World)
    (hknown : ∀ place r, (world.network place r).isSome) {s : Rehearsal}
    (hran : (world.run words).rehearsal = some s) {sub : Submission}
    {handle : Handle} (hsub : s.engine.submissions[0]? = some sub)
    (haccepted : sub.phase = .accepted handle) :
    ∃ a settings log errand c, Arguments.read words world.environment = .ok a ∧
      a.settings world.files world.environment = .ok settings ∧
      (world.run words).log = some log ∧
      Errand.ofArguments settings a = .ok errand ∧
      s.engine.registry.collation? handle = some c ∧ c.id = sub.id ∧
      c.isComplete = true ∧
      errand.target.resolve (.ofEntries errand.members) errand.request =
        .ok c.expected ∧
      ((world.run words).output = c.view.toJson.indented 0 ++ "\n" ∧
          ((world.run words).exitCode = 0 ↔ ∀ n ∈ c.expected, ∃ answer,
            c.answer? n = some answer ∧ answer.failure = none ∧
              200 ≤ answer.status ∧ answer.status < 300) ∨
        (world.run words).output = "" ∧ (world.run words).exitCode = 1 ∧
          (world.run words).errorText =
            "Error: cluster response " ++ sub.id ++
              " is no longer available\n" ∧
          .purging sub.id ∈ s.engine.journal ∧
          ((Notice.purging sub.id).entry ∈
            log.written (world.run words).entries ↔
            log.filter.admits ⟨"replix_core::service::registry", ["message"]⟩
              .debug = true) ∧
          ∃ completed asked, c.completedAt = some completed ∧
            settings.engineConfig.registry.retention.nanos ≤ s.now - completed ∧
            asked + settings.engineConfig.registry.retention.nanos ≤ s.now ∧
            s.now ≤ Instant.timer asked errand.pause) := by
  obtain ⟨a, settings, log, errand, hread, hsettings, herrand, hrun⟩ :=
    carryOut_of_run hran
  rw [hrun] at hran ⊢
  obtain ⟨hpause, hconfig⟩ : 0 < errand.pause.nanos ∧
      errand.settings = settings :=
    Errand.pause_of_arguments herrand
  obtain ⟨⟨htarget, hrequest⟩, s₁, finding, hawaited, rfl, hcarried⟩ :=
    errand.carryOut_awaited hknown hpause hran hsub haccepted
  obtain ⟨hnow, -, hcollations, hjournal⟩ := hawaited.shutDown
  obtain ⟨c, hc, hcomplete, hfinding⟩ := hawaited.finding
  obtain ⟨c', hc', hid, hresolved⟩ :=
    hawaited.calm.rehearsed.targets hawaited.alone
  rw [hc] at hc'
  cases hc'
  have hsound := hawaited.calm.rehearsed.owned.sound.collations handle c hc
  rw [htarget, hrequest] at hresolved
  refine ⟨a, settings, log, errand, c, hread, hsettings, rfl, herrand, ?_, hid,
    hcomplete, hresolved, ?_⟩
  · rw [Registry.collation?, hcollations]
    exact hc
  · rw [hcarried, hnow, ← hconfig]
    rcases hfinding with rfl | ⟨rfl, hpurged, hslow⟩
    · refine Or.inl ⟨rfl, ?_⟩
      rw [← hsound.view_isSuccess_iff hcomplete]
      show (if c.view.isSuccess then 0 else 1) = 0 ↔ _
      split
      · next hsuccess => exact iff_of_true rfl hsuccess
      · next hfailed => exact iff_of_false Nat.one_ne_zero hfailed
    · have hpurged := hjournal hpurged
      refine Or.inr ⟨rfl, rfl, Complaint.text_unavailable _, hpurged, ?_, hslow⟩
      rw [Log.mem_written, and_iff_right (Ending.entry_mem_entries rfl hpurged)]
      exact Iff.rfl

/-- The node takes a quarter of a second, and the run asks three times in
vain. -/
theorem final_report_after_pauses :
    let reply := Text.utf8 "HTTP/1.1 200 OK\r\nContent-Length: 2\r\n\r\nok"
    let world : World := {
      network := fun _ _ => some (.replied .zero (.ofMillis 250) .zero reply) }
    let words := ["/api/flow", "-n", "n1@127.0.0.1:8080"]
    ∃ s sub handle c, (world.run words).rehearsal = some s ∧
      s.engine.submissions[0]? = some sub ∧ sub.phase = .accepted handle ∧
      s.engine.registry.collation? handle = some c ∧ c.isComplete = true ∧
      (world.run words).output = c.view.toJson.indented 0 ++ "\n" ∧
      (world.run words).exitCode = 0 ∧
      ∀ n ∈ c.expected, ∃ answer, c.answer? n = some answer ∧
        answer.failure = none ∧ 200 ≤ answer.status ∧ answer.status < 300 := by
  intro reply world words
  obtain ⟨hexit, haccepted⟩ : (world.run words).exitCode = 0 ∧
      ((world.run words).rehearsal.any fun s =>
        s.engine.submissions[0]?.any fun sub =>
        sub.phase = .accepted 0) = true := by
    decide +kernel
  obtain ⟨s, hran, haccepted⟩ := (Option.any_eq_true _ _).1 haccepted
  obtain ⟨sub, hsub, haccepted⟩ := (Option.any_eq_true _ _).1 haccepted
  have hphase := of_decide_eq_true haccepted
  obtain ⟨a, settings, log, errand, c, -, -, -, -, hc, -, hcomplete, -,
      hprinted | hlost⟩ :=
    final_report words world (fun _ _ => rfl) hran hsub hphase
  · obtain ⟨houtput, hsuccess⟩ := hprinted
    exact ⟨s, sub, 0, c, hran, hsub, hphase, hc, hcomplete, houtput, hexit,
      hsuccess.1 hexit⟩
  · obtain ⟨-, hfailed, -⟩ := hlost
    rw [hexit] at hfailed
    cases hfailed

/-- The node replies after a millisecond, and the run does not ask again for
forty seconds. The report is kept for thirty. -/
theorem final_report_overslept :
    let reply := Text.utf8 "HTTP/1.1 200 OK\r\nContent-Length: 2\r\n\r\nok"
    let world : World :=
      { network := fun _ _ => some (.replied .zero (.ofMillis 1) .zero reply) }
    let words :=
      ["/api/flow", "-n", "n1@127.0.0.1:8080", "--poll-interval", "40000"]
    ∃ s sub handle c, (world.run words).rehearsal = some s ∧
      s.engine.submissions[0]? = some sub ∧ sub.phase = .accepted handle ∧
      s.engine.registry.collation? handle = some c ∧ c.isComplete = true ∧
      (∀ n ∈ c.expected, ∃ answer, c.answer? n = some answer ∧
        answer.isSuccess = true) ∧
      (world.run words).output = "" ∧ (world.run words).exitCode = 1 ∧
      (world.run words).errorText =
        "Error: cluster response " ++ sub.id ++
          " is no longer available\n" := by
  intro reply world words
  obtain ⟨houtput, hexit, hended⟩ : (world.run words).output = "" ∧
      (world.run words).exitCode = 1 ∧
      ((world.run words).rehearsal.any fun s =>
        s.engine.submissions[0]?.any fun sub =>
        sub.phase = .accepted 0 ∧
          (world.run words).errorText =
            "Error: cluster response " ++ sub.id ++
              " is no longer available\n" ∧
          ((s.engine.registry.collation? 0).any fun c => c.isComplete = true ∧
            ∀ n ∈ c.expected, (c.answer? n).any Answer.isSuccess = true) =
              true) = true := by
    decide +kernel
  obtain ⟨s, hran, hended⟩ := (Option.any_eq_true _ _).1 hended
  obtain ⟨sub, hsub, hended⟩ := (Option.any_eq_true _ _).1 hended
  obtain ⟨hphase, hcomplaint, hcollation⟩ := of_decide_eq_true hended
  obtain ⟨c, hc, hcollation⟩ := (Option.any_eq_true _ _).1 hcollation
  obtain ⟨hcomplete, hall⟩ := of_decide_eq_true hcollation
  exact ⟨s, sub, 0, c, hran, hsub, hphase, hc, hcomplete,
    fun n hn => (Option.any_eq_true _ _).1 (hall n hn), houtput, hexit,
    hcomplaint⟩

end World

end Fanout
