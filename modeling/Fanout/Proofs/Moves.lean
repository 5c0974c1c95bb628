import Fanout.Proofs.Transition

/-!
# What a step does to one record

A transition is told from the whole engine. To follow one call or one round
through a run it is easier to have it the other way round: what may have become
of this record, and which event has done it. For each kind of record there is
one lemma about those that are new and one about those that were there.
-/

namespace Fanout.Engine

/-! ## Calls -/

variable {e e' : Engine} {event : Event}

/-- A call that is new was made now, to probe a target of a running round, or to
deliver for a job that got a permit. -/
theorem Transition.new_call (h : Transition e event e') {k : Nat} {c : Call}
    (hnew : e.calls.length ≤ k) (hc : e'.calls[k]? = some c) :
    c.started = e'.now ∧ c.phase = .underWay ∧
      ((∃ (r : Nat) (round : Round), e.rounds[r]? = some round ∧
        round.phase = .running ∧ c.purpose = .probe r ∧
        c.outbound = round.outbound.probe ∧
        c.node ∈ round.unasked) ∨
      (event = .startJob ∧ e.calls.length = k ∧
        ∃ (j : Nat) (job : Job) (batch : Batch),
        e.jobs[j]? = some job ∧ e.batches[job.batch]? = some batch ∧
        c.purpose = .delivery j ∧ c.node = job.node ∧
        c.outbound = batch.outbound)) := by
  cases h with
  | aside | refused | verified | admitted =>
      exact absurd hc (getElem?_ne_some hnew c)
  | probed r round node rest hround hphase hunasked =>
      obtain ⟨-, rfl⟩ := eq_of_getElem?_concat hnew hc
      refine ⟨rfl, rfl, Or.inl ⟨r, round, hround, hphase, rfl, rfl, ?_⟩⟩
      rw [hunasked]
      exact List.mem_cons_self
  | started j job batch hfree hhead hjob hbatch =>
      obtain ⟨rfl, rfl⟩ := eq_of_getElem?_concat hnew hc
      exact ⟨rfl, rfl, Or.inr ⟨rfl, rfl, j, job, batch, hjob, hbatch, rfl,
        rfl, rfl⟩⟩
  | arrived | finished | accepted | passed | turnedDown =>
      exact absurd hc (getElem?_set_ne_some hnew c _)
  | failed event r round s sub fault calls metrics journal hround hphase
      hs hsub hgiven =>
      exact absurd hc (getElem?_ne_some (hgiven.length ▸ hnew) c)

/-- What a step does to a call of a job: a result may arrive for it, or it is
answered. -/
theorem Transition.delivery_cases (hl : Linked e) (h : Transition e event e')
    {k j : Nat} {c c' : Call} (hc : e.calls[k]? = some c)
    (hp : c.purpose = .delivery j) (hc' : e'.calls[k]? = some c') :
    c' = c ∨ e'.now = e.now ∧
      ((∃ result, event = .arrive k result ∧ c.phase = .underWay ∧
        c' = { c with phase := .arrived result }) ∨
      ∃ a, event = .finish k ∧ c.answer? e.now = some a ∧
        c' = { c with phase := .answered a }) := by
  have hsame : e.calls[k]? = some c' → c' = c :=
    fun h => Option.some.inj (h.symm.trans hc)
  -- The call of a job is not the one that is set for a probe.
  have hprobe : ∀ {i r : Nat} {old new : Call}, e.calls[i]? = some old →
      old.purpose = .probe r → (e.calls.set i new)[k]? = some c' → c' = c := by
    intro i r old new hold hprobe hget
    rcases getElem?_set_cases hold hget with ⟨rfl, -⟩ | ⟨-, hget⟩
    · rw [hc] at hold
      cases hold
      rw [hp] at hprobe
      cases hprobe
    · exact hsame hget
  cases h with
  | aside | refused | verified | admitted => exact Or.inl (hsame hc')
  | probed | started =>
      exact Or.inl
        (Option.some.inj (hc'.symm.trans (getElem?_append_of_some hc _)))
  | arrived i old result hcall hphase =>
      rcases getElem?_set_cases hcall hc' with ⟨rfl, rfl⟩ | ⟨-, hc'⟩
      · rw [hc] at hcall
        cases hcall
        exact Or.inr ⟨rfl, Or.inl ⟨result, rfl, hphase, rfl⟩⟩
      · exact Or.inl (hsame hc')
  | finished i old answer j' job batch held callbacks metrics journal
      hcall hanswer =>
      rcases getElem?_set_cases hcall hc' with ⟨rfl, rfl⟩ | ⟨-, hc'⟩
      · rw [hc] at hcall
        cases hcall
        exact Or.inr ⟨rfl, Or.inr ⟨answer, rfl, hanswer, rfl⟩⟩
      · exact Or.inl (hsame hc')
  | accepted i old answer r round metrics journal hcall hanswer hpurpose =>
      exact Or.inl (hprobe hcall hpurpose hc')
  | passed i old answer r round s sub registry handle metrics journal hcall
      hanswer hpurpose =>
      exact Or.inl (hprobe hcall hpurpose hc')
  | turnedDown i old answer r round s sub fault registry metrics
      journal hcall hanswer hpurpose => exact Or.inl (hprobe hcall hpurpose hc')
  | failed event i round s sub fault calls metrics journal hround hphase
      hs hsub hgiven =>
      refine Or.inl (hsame ((hgiven.others k fun hin => ?_).symm.trans hc'))
      obtain ⟨c₀, hc₀, hp₀⟩ := hl.asked i round hround k hin
      rw [hc] at hc₀
      cases hc₀
      rw [hp] at hp₀
      cases hp₀

/-- A probe that a step ends was accepted, unless its round has failed. -/
theorem Transition.closed_probe (hl : Linked e) (h : Transition e event e')
    {k r : Nat} {c c' : Call} (hc : e.calls[k]? = some c)
    (hp : c.purpose = .probe r) (ho : c.isOpen = true)
    (hc' : e'.calls[k]? = some c') (hclosed : c'.isOpen = false) :
    (∃ a, c.answer? e.now = some a ∧ c'.phase = .answered a ∧
      a.refusal? = none ∧ e'.now = e.now) ∨
    ∃ (round : Round) (fault : Fault), e'.rounds[r]? = some round ∧
      round.phase = .failed fault := by
  have hsame : ¬ e.calls[k]? = some c' := fun h => by
    rw [hc] at h
    cases h
    rw [ho] at hclosed
    cases hclosed
  -- The call is the one that is set, since it has changed.
  have hset : ∀ {i : Nat} {old new : Call}, e.calls[i]? = some old →
      (e.calls.set i new)[k]? = some c' → i = k ∧ old = c ∧ new = c' := by
    intro i old new hold hget
    rcases getElem?_set_cases hold hget with ⟨rfl, rfl⟩ | ⟨-, hget⟩
    · exact ⟨rfl, Option.some.inj (hold.symm.trans hc), rfl⟩
    · exact absurd hget hsame
  have happend : ∀ {new : Call}, ¬ (e.calls ++ [new])[k]? = some c' := fun h =>
    hsame (hc.trans ((getElem?_append_of_some hc _).symm.trans h))
  cases h with
  | aside | refused | verified | admitted => exact absurd hc' hsame
  | probed | started => exact absurd hc' happend
  | arrived i old result hcall hphase =>
      obtain ⟨rfl, rfl, rfl⟩ := hset hcall hc'
      cases hclosed
  | finished i old answer j job batch held callbacks metrics
      journal hcall hanswer hpurpose =>
      obtain ⟨rfl, rfl, rfl⟩ := hset hcall hc'
      rw [hp] at hpurpose
      cases hpurpose
  | accepted i old answer r round metrics journal hcall hanswer
      hpurpose hround hphase hasked haccepts =>
      obtain ⟨rfl, rfl, rfl⟩ := hset hcall hc'
      exact Or.inl ⟨answer, hanswer, rfl, haccepts, rfl⟩
  | passed i old answer r round s sub registry handle metrics journal hcall
      hanswer hpurpose hround hphase hasked haccepts =>
      obtain ⟨rfl, rfl, rfl⟩ := hset hcall hc'
      exact Or.inl ⟨answer, hanswer, rfl, haccepts, rfl⟩
  | turnedDown i old answer r round s sub fault registry metrics
      journal hcall hanswer hpurpose hround hphase hasked haccepts =>
      obtain ⟨rfl, rfl, rfl⟩ := hset hcall hc'
      exact Or.inl ⟨answer, hanswer, rfl, haccepts, rfl⟩
  | failed event i round s sub fault calls metrics journal hround hphase
      hs hsub hgiven =>
      by_cases hin : k ∈ round.asked
      · obtain ⟨c₀, hc₀, hp₀⟩ := hl.asked i round hround k hin
        rw [hc] at hc₀
        cases hc₀
        rw [hp] at hp₀
        cases hp₀
        exact Or.inr
          ⟨_, fault, by rw [getElem?_set_of_some hround, if_pos rfl], rfl⟩
      · have hkept := hgiven.others k hin
        rw [hc] at hkept
        exact absurd (hc.trans (hkept.symm.trans hc')) hsame

/-! ## Rounds -/

/-- A round that is new asks the targets of a submission that is new as well. -/
theorem Transition.new_round (h : Transition e event e') {r : Nat}
    {round : Round} (hnew : e.rounds.length ≤ r)
    (hr : e'.rounds[r]? = some round) :
      e.rounds.length = r ∧ round.phase = .running ∧
        round.unasked = round.targets ∧
      e'.now ≤ round.deadline ∧ round.submission = some e.submissions.length ∧
      ∃ sub, e'.submissions[e.submissions.length]? = some sub ∧
        round.outbound = sub.outbound := by
  cases h with
  | aside | refused | admitted | started | arrived | finished =>
      exact absurd hr (getElem?_ne_some hnew round)
  | verified target request id seed nodes =>
      obtain ⟨rfl, rfl⟩ := eq_of_getElem?_concat hnew hr
      refine ⟨rfl, rfl, rfl, ?_, rfl, _, List.getElem?_concat_length, rfl⟩
      show e.now ≤ Instant.deadline e.now e.config.verificationTimeout
      unfold Instant.deadline Instant.after?
      split
      · exact Nat.le_add_right _ _
      · exact Nat.le_add_right _ _
  | probed | accepted | passed | turnedDown | failed =>
      exact absurd hr (getElem?_set_ne_some hnew round _)

/-- A round is opened by an engine that is not stopped, and for a submission
that needs one. -/
theorem Transition.new_round_needed (h : Transition e event e') {r : Nat}
    {round : Round} (hnew : e.rounds.length ≤ r)
    (hr : e'.rounds[r]? = some round) :
      e.isStopped = false ∧ ∃ sub, e'.submissions[e.submissions.length]? =
        some sub ∧
      sub.target.needsRound sub.request = true := by
  cases h with
  | aside | refused | admitted | started | arrived | finished =>
      exact absurd hr (getElem?_ne_some hnew round)
  | verified target request id seed nodes metrics journal hrunning
      hresolve hneeds =>
      exact ⟨hrunning, _, List.getElem?_concat_length, hneeds⟩
  | probed | accepted | passed | turnedDown | failed =>
      exact absurd hr (getElem?_set_ne_some hnew round _)

/-- What a step does to a round: nothing, unless it is running. Then its next
target may be asked; it may pass, if all were asked; and it may fail. -/
theorem Transition.round_cases (h : Transition e event e') {r : Nat}
    {round round' : Round} (hr : e.rounds[r]? = some round)
    (hr' : e'.rounds[r]? = some round') :
      round' = round ∨ round.phase = .running ∧
      ((∃ node, round.unasked = node :: round'.unasked ∧
        round'.phase = .running ∧ ∃ (k : Nat) (c : Call), e'.calls[k]? =
          some c ∧ c.purpose = .probe r ∧ c.node = node) ∨
      round'.unasked = round.unasked ∧ (round'.phase = .running ∨
        round'.phase = .passed ∧ round.unasked = [] ∨
        ∃ fault, round'.phase = .failed fault)) := by
  -- The round is the one that is set, or it is as it was.
  have hset : ∀ {i : Nat} {old new : Round}, e.rounds[i]? = some old →
      (e.rounds.set i new)[r]? = some round' →
      round' = round ∨ i = r ∧ old = round ∧ new = round' := by
    intro i old new hold hget
    rcases getElem?_set_cases hold hget with ⟨rfl, rfl⟩ | ⟨-, hget⟩
    · exact Or.inr ⟨rfl, Option.some.inj (hold.symm.trans hr), rfl⟩
    · exact Or.inl (Option.some.inj (hget.symm.trans hr))
  have hsame : e.rounds[r]? = some round' → round' = round :=
    fun h => Option.some.inj (h.symm.trans hr)
  cases h with
  | aside | refused | admitted | started | arrived | finished =>
      exact Or.inl (hsame hr')
  | verified target request id seed nodes =>
      have hkept := getElem?_append_of_some hr [e.roundFor
        (e.handedIn target request id seed (.rejected .stopped)) nodes]
      exact Or.inl (Option.some.inj (hr'.symm.trans hkept))
  | probed i old node rest hround hphase hunasked =>
      rcases hset hround hr' with heq | ⟨rfl, rfl, rfl⟩
      · exact Or.inl heq
      · exact Or.inr ⟨hphase, Or.inl ⟨node, hunasked, hphase, _, _,
          List.getElem?_concat_length, rfl, rfl⟩⟩
  | accepted k c answer i old metrics journal hcall hanswer hpurpose
      hround hphase =>
      rcases hset hround hr' with heq | ⟨rfl, rfl, rfl⟩
      · exact Or.inl heq
      · exact Or.inr ⟨hphase, Or.inr ⟨rfl, Or.inl hphase⟩⟩
  | passed k c answer i old s sub registry handle metrics journal hcall
      hanswer hpurpose hround hphase hasked haccepts hunasked =>
      rcases hset hround hr' with heq | ⟨rfl, rfl, rfl⟩
      · exact Or.inl heq
      · exact Or.inr ⟨hphase, Or.inr ⟨rfl, Or.inr (Or.inl ⟨rfl, hunasked⟩)⟩⟩
  | turnedDown k c answer i old s sub fault registry metrics journal hcall
      hanswer hpurpose hround hphase hasked haccepts hunasked =>
      rcases hset hround hr' with heq | ⟨rfl, rfl, rfl⟩
      · exact Or.inl heq
      · exact Or.inr ⟨hphase, Or.inr ⟨rfl, Or.inr (Or.inl ⟨rfl, hunasked⟩)⟩⟩
  | failed event i old s sub fault calls metrics journal hround hphase =>
      rcases hset hround hr' with heq | ⟨rfl, rfl, rfl⟩
      · exact Or.inl heq
      · exact Or.inr ⟨hphase, Or.inr ⟨rfl, Or.inr (Or.inr ⟨fault, rfl⟩)⟩⟩

/-! ## Rounds and their probes -/

/-- Where a call was answered, the open calls are the others. -/
theorem open_of_answered {calls : List Call} {k i : Nat} {c c' : Call}
    {answer : Answer} (hcall : calls[k]? = some c)
    (hi : (calls.set k { c with phase := .answered answer })[i]? = some c')
    (ho : c'.isOpen = true) : k ≠ i ∧ calls[i]? = some c' := by
  rcases getElem?_set_cases hcall hi with ⟨-, rfl⟩ | ⟨hki, hi⟩
  · cases ho
  · exact ⟨hki, hi⟩

/-- When a probe is judged, the round that an open probe belongs to still waits
for it, provided that a round that goes on waiting goes on running. -/
theorem Linked.open_of_judged (hl : Linked e) {k r : Nat} {c : Call}
    {answer : Answer} {round : Round} {asked : List Nat} {phase : RoundPhase}
    (hcall : e.calls[k]? = some c) (hround : e.rounds[r]? = some round)
    (hasked : asked = round.asked.erase k)
    (hgoes : asked ≠ [] → phase = .running) {i r' : Nat} {c' : Call}
    (hi : (e.calls.set k { c with phase := .answered answer })[i]? = some c')
    (hp : c'.purpose = .probe r') (ho : c'.isOpen = true) :
    ∃ round', (e.rounds.set r { round with asked, phase })[r']? = some round' ∧
      round'.phase = .running ∧ i ∈ round'.asked := by
  obtain ⟨hki, hi⟩ := open_of_answered hcall hi ho
  obtain ⟨round', hr', hphase', hi'⟩ := hl.probes i c' r' hi hp ho
  rw [getElem?_set_of_some hround]
  split
  · next hrr =>
      subst hrr
      rw [hround] at hr'
      cases hr'
      have hmem : i ∈ asked := by
        rw [hasked]
        exact (List.mem_erase_of_ne fun h => hki h.symm).2 hi'
      exact ⟨_, rfl, hgoes (List.ne_nil_of_mem hmem), hmem⟩
  · exact ⟨round', hr', hphase', hi'⟩

/-- A probe that is open after a step belongs to a running round that waits for
it. -/
theorem Transition.open_probe (hl : Linked e) (h : Transition e event e')
    {k r : Nat} {c : Call} (hc : e'.calls[k]? = some c)
    (hp : c.purpose = .probe r) (ho : c.isOpen = true) :
    ∃ round, e'.rounds[r]? = some round ∧ round.phase = .running ∧
      k ∈ round.asked := by
  cases h with
  | aside | refused | admitted => exact hl.probes k c r hc hp ho
  | verified target request id seed nodes =>
      obtain ⟨round, hr, hphase, hk⟩ := hl.probes k c r hc hp ho
      exact ⟨round, getElem?_append_of_some hr _, hphase, hk⟩
  | probed i round node rest hround hphase hunasked =>
      rw [getElem?_set_of_some hround]
      rcases getElem?_concat_cases hc with hc | ⟨rfl, rfl⟩
      · obtain ⟨round', hr', hphase', hk'⟩ := hl.probes k c r hc hp ho
        split
        · next hir =>
            subst hir
            rw [hround] at hr'
            cases hr'
            exact ⟨_, rfl, hphase, List.mem_append_left _ hk'⟩
        · exact ⟨round', hr', hphase', hk'⟩
      · cases hp
        exact ⟨_, if_pos rfl, hphase,
          List.mem_append_right _ List.mem_cons_self⟩
  | started j job batch =>
      rcases getElem?_concat_cases hc with hc | ⟨-, rfl⟩
      · exact hl.probes k c r hc hp ho
      · cases hp
  | arrived i old result hcall hphase =>
      rcases getElem?_set_cases hcall hc with ⟨rfl, rfl⟩ | ⟨-, hc⟩
      · exact hl.probes i old r hcall hp (by rw [Call.isOpen, hphase])
      · exact hl.probes k c r hc hp ho
  | finished i old answer j job batch held callbacks metrics journal hcall =>
      exact hl.probes k c r (open_of_answered hcall hc ho).2 hp ho
  | accepted i old answer r' round metrics journal hcall hanswer hpurpose
      hround hphase =>
      exact hl.open_of_judged hcall hround rfl (fun _ => hphase) hc hp ho
  | passed i old answer r' round s sub registry handle metrics
      journal hcall hanswer hpurpose hround hphase hasked haccepts
        hunasked hlast =>
      exact hl.open_of_judged hcall hround hlast.symm
        (fun h => absurd rfl h) hc hp ho
  | turnedDown i old answer r' round s sub fault registry metrics
      journal hcall hanswer hpurpose hround hphase hasked haccepts
        hunasked hlast =>
      exact hl.open_of_judged hcall hround hlast.symm
        (fun h => absurd rfl h) hc hp ho
  | failed event i round s sub fault calls metrics journal hround hphase
      hs hsub hgiven =>
      have hk : k ∉ round.asked := fun hk => by
        rw [hgiven.ended k hk c hc] at ho
        cases ho
      rw [hgiven.others k hk] at hc
      obtain ⟨round', hr', hphase', hk'⟩ := hl.probes k c r hc hp ho
      have hir : i ≠ r := by
        rintro rfl
        rw [hround] at hr'
        cases hr'
        exact hk hk'
      exact ⟨round', by rw [getElem?_set_of_some hround, if_neg hir]; exact hr',
        hphase', hk'⟩

/-- What a round waits for after a step it has waited for before, or it is a
probe that is made now. -/
theorem Transition.asked_cases (h : Transition e event e') {r k : Nat}
    {round : Round} (hr : e'.rounds[r]? = some round) (hk : k ∈ round.asked) :
    (∃ old, e.rounds[r]? = some old ∧ k ∈ old.asked) ∨
      ∃ c, e'.calls[k]? = some c ∧ c.purpose = .probe r := by
  -- A round that is set and waits for nothing new.
  have hset : ∀ {i : Nat} {old new : Round}, e.rounds[i]? = some old →
      (∀ k ∈ new.asked, k ∈ old.asked) → (e.rounds.set i new)[r]? = some round →
      ∃ old, e.rounds[r]? = some old ∧ k ∈ old.asked := by
    intro i old new hold hasked hget
    rcases getElem?_set_cases hold hget with ⟨rfl, rfl⟩ | ⟨-, hget⟩
    · exact ⟨old, hold, hasked k hk⟩
    · exact ⟨round, hget, hk⟩
  cases h with
  | aside | refused | admitted | started | arrived | finished =>
      exact Or.inl ⟨round, hr, hk⟩
  | verified target request id seed nodes =>
      rcases getElem?_concat_cases hr with hr | ⟨-, rfl⟩
      · exact Or.inl ⟨round, hr, hk⟩
      · cases hk
  | probed i old node rest hround =>
      rcases getElem?_set_cases hround hr with ⟨rfl, rfl⟩ | ⟨-, hr⟩
      · rcases List.mem_append.1 hk with hk | hk
        · exact Or.inl ⟨old, hround, hk⟩
        · rw [List.mem_singleton.1 hk]
          exact Or.inr ⟨_, List.getElem?_concat_length, rfl⟩
      · exact Or.inl ⟨round, hr, hk⟩
  | accepted i c answer r' old metrics journal hcall hanswer hpurpose hround =>
      exact Or.inl (hset hround (fun _ hk => List.mem_of_mem_erase hk) hr)
  | passed i c answer r' old s sub registry handle metrics journal hcall
      hanswer hpurpose hround =>
      exact Or.inl (hset hround (fun _ hk => absurd hk List.not_mem_nil) hr)
  | turnedDown i c answer r' old s sub fault registry metrics journal hcall
      hanswer hpurpose hround =>
      exact Or.inl (hset hround (fun _ hk => absurd hk List.not_mem_nil) hr)
  | failed event i old s sub fault calls metrics journal hround =>
      exact Or.inl (hset hround (fun _ hk => absurd hk List.not_mem_nil) hr)

/-! ## Batches and jobs -/

/-- The collation of an admitted submission is found under its handle. -/
theorem Admits.collation {sub : Submission} {nodes : List Node}
    {registry : Registry} {handle : Handle}
    (h : e.Admits sub nodes registry handle) :
    ∃ c, registry.collations[handle]? = some c ∧
      (e.collationOf sub nodes).Seen e.now c :=
  Registry.collation_of_register h.registered

/-- The jobs that are added with a batch belong to it. -/
theorem batch_of_dispatched {jobs : List Job} {batches : List Batch}
    {nodes : List Node} {j : Nat} {job : Job} (batch : Batch)
    (hj : jobs.length ≤ j)
      (h : (jobs ++ nodes.map fun node =>
        ({ batch := batches.length, node } : Job))[j]? =
      some job) : (batches ++ [batch])[job.batch]? = some batch := by
  rw [List.getElem?_append_right hj, List.getElem?_map,
    Option.map_eq_some_iff] at h
  obtain ⟨node, -, rfl⟩ := h
  exact List.getElem?_concat_length

/-- A job that is new belongs to a batch. -/
theorem Transition.new_job (h : Transition e event e') {j : Nat} {job : Job}
    (hnew : e.jobs.length ≤ j) (hj : e'.jobs[j]? = some job) :
    ∃ batch, e'.batches[job.batch]? = some batch := by
  cases h with
  | aside | refused | verified | probed | arrived | accepted | turnedDown |
      failed =>
      exact absurd hj (getElem?_ne_some hnew job)
  | started | finished => exact absurd hj (getElem?_set_ne_some hnew job _)
  | admitted | passed => exact ⟨_, batch_of_dispatched _ hnew hj⟩

/-- A batch that is new fills the collation that was made for it. -/
theorem Transition.new_batch (h : Transition e event e') {b : Nat}
    {batch : Batch} (hnew : e.batches.length ≤ b)
    (hb : e'.batches[b]? = some batch) :
    ∃ c, e'.registry.collations[batch.handle]? = some c := by
  cases h with
  | aside | refused | verified | probed | started | arrived | accepted |
      turnedDown | failed => exact absurd hb (getElem?_ne_some hnew batch)
  | finished => exact absurd hb (getElem?_set_ne_some hnew batch _)
  | admitted target request id seed nodes registry handle metrics
      journal hresolve hround hadmits =>
      obtain ⟨-, rfl⟩ := eq_of_getElem?_concat hnew hb
      obtain ⟨c, hc, -⟩ := hadmits.collation
      exact ⟨c, hc⟩
  | passed k c answer r round s sub registry handle metrics journal hcall
      hanswer hpurpose hround hphase hasked haccepts hunasked hlast
        hs hsub hadmits =>
      obtain ⟨-, rfl⟩ := eq_of_getElem?_concat hnew hb
      obtain ⟨c, hc, -⟩ := hadmits.collation
      exact ⟨c, hc⟩

/-! ## The clock -/

theorem Transition.now_cases (h : Transition e event e') :
    e'.now = e.now ∨ event = .advance e'.now := by
  cases h with
  | aside event now members isStopped isSweeping registry metrics journal
      hnow hadvance =>
      exact hadvance
  | _ => exact Or.inl rfl

theorem Transition.members_eq (h : Transition e event e')
    (hmembership : event.isMembership = false) : e'.members = e.members := by
  cases h with
  | aside event now members isStopped isSweeping registry metrics journal hnow
      hadvance hmembers hregistry hjournal hoperation hsame =>
      refine hsame.resolve_right fun h => ?_
      rw [hmembership] at h
      cases h
  | _ => rfl

end Fanout.Engine
