import Fanout.Proofs.Callback
import Fanout.Proofs.Draining
import Fanout.Proofs.Rejection
import Fanout.Proofs.Uniform

/-!
# Forwarding to the coordinator

A request that is forwarded to the coordinator takes a path of its own. Its
target is the coordinator, whatever the directory says of it, and nobody is
asked before, so a request that needs no round is what this is about: it is
decided about when it is handed in, and for no other reasons than there are at
that time. And it must go out without the mark of a request that was fanned out,
or the coordinator would take it for one. All the rest of it is what everybody
else would have got.
-/

namespace Fanout

/-! ## What the coordinator gets -/

namespace Outbound

variable {id seed : String} {r : Request} {given : List (String × String)}

/-- A request that does not tell that it was fanned out differs in the mark that
would, and in nothing else. -/
theorem mem_unmarked (entry : String × String) :
    entry ∈ (ofGiven id seed { r with indicate := false } given).headers ↔
      entry ∈ (ofGiven id seed r given).headers ∧
      entry.1 ≠ Header.replicated := by
  obtain ⟨name, value⟩ := entry
  rw [mem_iff_valueAt? (guarded_ofGiven ..).ascending.nodup,
    mem_iff_valueAt? (guarded_ofGiven ..).ascending.nodup]
  by_cases hname : name = Header.replicated
  · subst hname
    have hnone : valueAt? Header.replicated
        (ofGiven id seed { r with indicate := false } given).headers = none :=
      valueAt?_ofGiven_reserved _ _ _ _ (by decide)
    simp [hnone]
  · have hprotocol : protocolValue id { r with indicate := false } name =
        protocolValue id r name := by
      simp only [protocolValue, if_neg hname]
    have hseed : takesSeed (Request.withHeaders
        { { r with indicate := false } with headers := [] } given) =
        takesSeed (Request.withHeaders { r with headers := [] } given) :=
      Bool.eq_iff_iff.2
        ((takesSeed_withHeaders (r := { r with indicate := false })).trans
        (takesSeed_withHeaders (r := r)).symm)
    rw [valueAt?_ofGiven, valueAt?_ofGiven, hseed, hprotocol]
    simp [hname]

end Outbound

theorem Submission.needsRound_of_coordinator {sub : Submission} {node : Node}
    (h : sub.target = .coordinator node) :
    sub.target.needsRound sub.request = false := by
  simp [h, Target.needsRound, Target.isCoordinator]

namespace Engine

/-! ## Requests that need no round -/

/-- What is known of submissions that need no round: there is none for them, and
if they were rejected, they were when they were handed in. -/
structure Outright (e₀ : Engine) (events : List Event) (e : Engine) : Prop where
  rounds : ∀ (r : Nat) round (s : Nat) sub, e.rounds[r]? = some round →
    round.submission = some s → e.submissions[s]? = some sub →
    sub.target.needsRound sub.request = true
  refused : ∀ (s : Nat) sub fault, e.submissions[s]? = some sub →
    sub.target.needsRound sub.request = false → sub.phase = .rejected fault →
    ∃ b registry, HandedIn e₀ events s sub b ∧
      b.Refuses (b.handedIn sub.target sub.request sub.id sub.seed
        (.rejected .stopped)) registry fault

theorem outright_start (config : EngineConfig) (members : Membership)
    (wants : Bool) :
    Outright (start config members wants) [] (start config members wants) where
  rounds _ _ _ _ h := nomatch h
  refused _ _ _ h := nomatch h

section

variable {e₀ e e' : Engine} {events : List Event} {event : Event}

theorem Outright.of_transition (hrun : e₀.run events = some e)
    (hprobed : e.Probed) (ho : Outright e₀ events e)
    (h : Transition e event e') : Outright e₀ (events ++ [event]) e' where
  rounds r round' s sub' hr' hs hsub' := by
    rcases h.later.rounds.old_or_new hr' with ⟨round, hr, hrr⟩ | hnew
    · rw [hrr.submission] at hs
      obtain ⟨s₀, sub, hs₀, hsub, -⟩ := hprobed.owners r round hr
      rw [hs] at hs₀
      cases hs₀
      obtain ⟨sub'', hsub'', hsame⟩ := h.later.submissions s sub hsub
      rw [hsub'] at hsub''
      cases hsub''
      rw [hsame.target, hsame.request]
      exact ho.rounds r round s sub hr hs hsub
    · obtain ⟨-, -, -, -, hs', -⟩ := h.new_round hnew hr'
      obtain ⟨-, sub, hsub, hneeds⟩ := h.new_round_needed hnew hr'
      rw [hs] at hs'
      cases hs'
      rw [hsub'] at hsub
      cases hsub
      exact hneeds
  refused s sub fault hsub hneeds hrejected := by
    have hold : e.submissions[s]? = some sub → ∃ b registry,
        HandedIn e₀ (events ++ [event]) s sub b ∧
          b.Refuses (b.handedIn sub.target sub.request sub.id sub.seed
            (.rejected .stopped)) registry fault := by
      intro hsub₀
      obtain ⟨b, registry, hhanded, hrefuses⟩ :=
        ho.refused s sub fault hsub₀ hneeds hrejected
      exact ⟨b, registry, hhanded.snoc event, hrefuses⟩
    cases h with
    | aside | probed | started | arrived | finished | accepted =>
        exact hold hsub
    | refused target request id seed fault' isSweeping registry metrics
        journal hregistry hjournal hrefuses =>
        rcases getElem?_concat_cases hsub with hsub | ⟨rfl, rfl⟩
        · exact hold hsub
        · cases hrejected
          exact ⟨e, registry, ⟨⟨events, [], rfl, hrun⟩, rfl⟩, hrefuses⟩
    | verified | admitted =>
        rcases getElem?_concat_cases hsub with hsub | ⟨-, rfl⟩
        · exact hold hsub
        · cases hrejected
    | passed k c answer r round i sub₁ registry handle metrics journal hcall
        hanswer hpurpose hround hrunning hasked haccepts hunasked
          hlast hs hsub₁ =>
        rcases getElem?_set_cases hsub₁ hsub with ⟨-, rfl⟩ | ⟨-, hsub⟩
        · cases hrejected
        · exact hold hsub
    | turnedDown k c answer r round i sub₁ fault' registry metrics
        journal hcall hanswer hpurpose hround hrunning hasked haccepts hunasked
          hlast hs hsub₁ =>
        rcases getElem?_set_cases hsub₁ hsub with ⟨rfl, rfl⟩ | ⟨-, hsub⟩
        · -- A round has decided about it, so it needed one.
          have hneeded := ho.rounds r round i sub₁ hround hs hsub₁
          cases hneeded.symm.trans hneeds
        · exact hold hsub
    | failed event r round i sub₁ fault' calls metrics journal hround
        hrunning hs hsub₁ =>
        rcases getElem?_set_cases hsub₁ hsub with ⟨rfl, rfl⟩ | ⟨-, hsub⟩
        · have hneeded := ho.rounds r round i sub₁ hround hs hsub₁
          cases hneeded.symm.trans hneeds
        · exact hold hsub

/-- The calls that carry an identifier. -/
def callsWith (e : Engine) (id : String) : List Call :=
  e.calls.filter fun c => c.outbound.id = id

variable {s : Nat} {sub : Submission}

/-- Nobody is asked for a submission that needs no round. -/
theorem Outright.not_probe (ho : Outright e₀ events e) (hprobed : e.Probed)
    (hsub : e.submissions[s]? = some sub)
    (hneeds : sub.target.needsRound sub.request = false)
    (hfresh : ∀ (s' : Nat) sub', e.submissions[s']? = some sub' →
      sub'.id = sub.id → s' = s)
    {k : Nat} {c : Call} (hc : e.calls[k]? = some c)
    (hid : c.outbound.id = sub.id) (r : Nat) : c.purpose ≠ .probe r := by
  intro hpurpose
  obtain ⟨round, hround, hs⟩ := hprobed.round_of_id hfresh hc hpurpose hid
  have hneeded := ho.rounds r round s sub hround hs hsub
  cases hneeded.symm.trans hneeds

/-- A job is all that is done for a submission: each call that carries its
identifier was made for that job, and delivers it to the node of the job. -/
structure OnlyJob (e : Engine) (sub : Submission) (node : Node) (j : Nat)
    (job : Job) : Prop where
  found : e.jobs[j]? = some job
  goesTo : job.node = node
  made : ∀ c ∈ e.calls, c.outbound.id = sub.id ↔ c.purpose = .delivery j
  carried : ∀ c ∈ e.calls, c.purpose = .delivery j →
    c.node = node ∧ c.outbound = sub.outbound

theorem Outright.onlyJob (ho : Outright e₀ events e) (hr : Reached e₀ events e)
    (hprobed : e.Probed) (hsub : e.submissions[s]? = some sub)
    (hneeds : sub.target.needsRound sub.request = false)
    (hfresh : ∀ (s' : Nat) sub', e.submissions[s']? = some sub' →
      sub'.id = sub.id → s' = s)
    {b : Engine} {handle : Handle} {n : Nat} {batch : Batch} {held : Collation}
    {node : Node} (haccepted : sub.phase = .accepted handle)
    (hdelivers : Delivers b e sub handle n batch held)
    (hnodes : e.nodesOf n = [node]) : ∃ j job, e.OnlyJob sub node j job := by
  have hs := hr.staffed
  have hnode : node ∈ e.nodesOf n := by simp [hnodes]
  obtain ⟨job, hjob, hin⟩ := List.mem_filterMap.1 hnode
  obtain ⟨j, hj⟩ := List.getElem?_of_mem hjob
  have hbatch : job.batch = n ∧ job.node = node := by
    rw [nodeIn] at hin
    split at hin
    · next hbatch => exact ⟨hbatch, Option.some.inj hin⟩
    · cases hin
  have hcarried : ∀ c ∈ e.calls, c.purpose = .delivery j →
      c.node = node ∧ c.outbound = sub.outbound := by
    intro c hc hpurpose
    obtain ⟨k, hk⟩ := List.getElem?_of_mem hc
    obtain ⟨job', batch', hj', hb', hto, hout, -⟩ := hs.serves k c j hk hpurpose
    cases hj.symm.trans hj'
    rw [hbatch.1, hdelivers.found] at hb'
    cases hb'
    exact ⟨hto.trans hbatch.2, hout.trans hdelivers.outbound⟩
  refine ⟨j, job, hj, hbatch.2, fun c hc => ⟨fun hid => ?_, fun hpurpose => ?_⟩,
    hcarried⟩
  · obtain ⟨k, hk⟩ := List.getElem?_of_mem hc
    have hcarries : Carries e sub k c :=
      ⟨hk, ho.not_probe hprobed hsub hneeds hfresh hk hid, hid⟩
    obtain ⟨handle', haccepted', j', job', batch', hpurpose, hj', hb', hfills,
        hto⟩ :=
      hcarries.serving hr hsub hfresh
    cases haccepted.symm.trans haccepted'
    -- The batch has one node, so its jobs are one as well.
    have hn : job'.batch = n := hs.eq_of_handle hb' hdelivers.found
      (hfills.trans hdelivers.fills.symm)
    have hin' : nodeIn n job' = some job'.node := if_pos hn
    have hto' : job'.node ∈ e.nodesOf n :=
      List.mem_filterMap.2 ⟨job', List.mem_of_getElem? hj', hin'⟩
    rw [hnodes, List.mem_singleton] at hto'
    rw [hto'] at hin'
    have hnodup : (e.nodesOf n).Nodup := by simp [hnodes]
    rw [hpurpose, eq_of_filterMap_nodup hnodup hj hj' hin hin']
  · rw [(hcarried c hc hpurpose).2]
    rfl

/-- No call is made as long as the job waits, and then one. -/
theorem OnlyJob.callsWith_eq {node : Node} {j : Nat} {job : Job}
    (hs : e.Staffed) (h : e.OnlyJob sub node j job) :
    (job.phase = .waiting ∧ e.callsWith sub.id = []) ∨
      job.phase ≠ .waiting ∧ ∃ c, e.callsWith sub.id = [c] ∧ c.node = node ∧
        c.isProbe = false ∧ c.outbound = sub.outbound := by
  have hcalls : e.callsWith sub.id = e.callsOf j :=
    List.filter_congr fun c hc => decide_eq_decide.2 (h.made c hc)
  have hone : ∀ {k : Nat} {c : Call}, e.calls[k]? = some c →
      c.purpose = .delivery j → ∃ c, e.callsWith sub.id = [c] ∧ c.node = node ∧
        c.isProbe = false ∧ c.outbound = sub.outbound := by
    intro k c hc hpurpose
    obtain ⟨hto, hout⟩ := h.carried c (List.mem_of_getElem? hc) hpurpose
    exact ⟨c, hcalls.trans (hs.callsOf_eq hc hpurpose),
      hto, by rw [Call.isProbe, hpurpose], hout⟩
  cases hphase : job.phase with
  | waiting =>
      refine Or.inl
        ⟨rfl, hcalls.trans (List.filter_eq_nil_iff.2 fun c hc hpurpose => ?_)⟩
      obtain ⟨k, hk⟩ := List.getElem?_of_mem hc
      exact hs.waiting j job h.found hphase k c hk (of_decide_eq_true hpurpose)
  | calling k =>
      obtain ⟨c, hc, hpurpose, -⟩ := hs.calling j job k h.found hphase
      exact Or.inr ⟨by simp, hone hc hpurpose⟩
  | done answer =>
      obtain ⟨k, c, hc, hpurpose, -⟩ := hs.done j job answer h.found hphase
      exact Or.inr ⟨by simp, hone hc hpurpose⟩

end

section

variable {config : EngineConfig} {entries : List (Node × Connectivity)}
  {wants : Bool} {events : List Event} {e : Engine} {s : Nat} {sub : Submission}

theorem outright_of_run
    (h : (start config (.ofEntries entries) wants).run events = some e) :
    Outright (start config (.ofEntries entries) wants) events e :=
  (run_invariant
    (P := fun events e => e.Probed ∧
      Outright (start config (.ofEntries entries) wants) events e)
    (reached_start config entries wants)
    ⟨probed_start config _ wants, outright_start config _ wants⟩
    (fun _ _ _ _ hrun hr ⟨hprobed, ho⟩ _ h =>
      ⟨hprobed.of_transition hr.linked h,
        ho.of_transition hrun hprobed h⟩) h).1.2

variable (h : (start config (.ofEntries entries) wants).run events = some e)
  (hsub : e.submissions[s]? = some sub)
  (hfresh : ∀ (s' : Nat) sub', e.submissions[s']? = some sub' →
    sub'.id = sub.id → s' = s)

include h hfresh

/-- Nobody has the identifier of a submission when it is handed in. -/
theorem HandedIn.unheld {b : Engine}
    (hhanded : HandedIn (start config (.ofEntries entries) wants)
      events s sub b) :
    b.registry.entry? sub.id = none := by
  obtain ⟨pre, post, hevents, hpre⟩ := hhanded.split
  have hlater : Later b e :=
    later_of_run (reached_of_run hpre).linked (run_append hpre (hevents ▸ h))
  by_contra hheld
  obtain ⟨entry, hentry⟩ := Option.ne_none_iff_exists'.1 hheld
  -- What is held belongs to a submission that was handed in before, so to
  -- another one.
  obtain ⟨i, other, hother, -, hid⟩ :=
    (owned_of_run hpre).entries entry (Registry.mem_of_entry hentry)
  obtain ⟨other', hother', hsame⟩ := hlater.submissions i other hother
  have hi :=
    hfresh i other' hother'
      (hsame.id.trans (hid.trans (Registry.id_of_entry hentry)))
  have hlt := (List.getElem?_eq_some_iff.1 hother).1
  have hindex := hhanded.index
  omega

include hsub

/-- Two reasons are left for which a request to the coordinator is rejected. -/
theorem fault_of_coordinator {node : Node}
    (htarget : sub.target = .coordinator node)
    {fault : Fault} (hrejected : sub.phase = .rejected fault) :
    fault = .stopped ∨ fault = .tooManyRequests config.registry.limit := by
  have hneeds := Submission.needsRound_of_coordinator htarget
  obtain ⟨b, registry, hhanded, hrefuses⟩ :=
    (outright_of_run h).refused s sub fault hsub hneeds hrejected
  have hfree := hhanded.unheld h hfresh
  obtain ⟨pre, post, -, hpre⟩ := hhanded.split
  have hresolve : sub.target.resolve b.members sub.request = .ok [node] := by
    rw [htarget]; rfl
  cases hrefuses with
  | stopped => exact Or.inl rfl
  | unresolved _ _ herror => cases hresolve.symm.trans herror
  | unconnected _ _ _ _ hround => cases hneeds.symm.trans hround
  | denied nodes registry fault hrunning hresolved hround hdenies =>
      cases hdenies with
      | stopped => exact Or.inl rfl
      | unheld registry fault hrunning hregister =>
          obtain ⟨-, rfl⟩ :=
            Registry.entries_of_refused (owned_of_run hpre).sound
              hregister hfree
          rw [registry_config_of_run hpre]
          exact Or.inr rfl

/-- No call is made for a submission that needs no round and is rejected. -/
theorem callsWith_eq_nil (hneeds : sub.target.needsRound sub.request = false)
    {fault : Fault} (hrejected : sub.phase = .rejected fault) :
    e.callsWith sub.id = [] := by
  refine List.filter_eq_nil_iff.2 fun c hc hid => ?_
  obtain ⟨k, hk⟩ := List.getElem?_of_mem hc
  have hreal :=
    (outright_of_run h).not_probe (probed_of_run h) hsub hneeds hfresh hk
    (of_decide_eq_true hid)
  obtain ⟨handle, haccepted, -⟩ :=
    Carries.serving (reached_of_run h) hsub hfresh
      ⟨hk, hreal, of_decide_eq_true hid⟩
  cases hrejected.symm.trans haccepted

/-- An accepted request to the coordinator waits for the coordinator, and there
is one job for it. -/
theorem onlyJob_of_coordinator {node : Node}
    (htarget : sub.target = .coordinator node)
    {handle : Handle} (haccepted : sub.phase = .accepted handle) :
    (∃ c, e.registry.collations[handle]? = some c ∧ c.id = sub.id ∧
      c.expected = [node]) ∧ ∃ j job, e.OnlyJob sub node j job := by
  have hr := reached_of_run h
  have hneeds := Submission.needsRound_of_coordinator htarget
  obtain ⟨b, hhanded, -, hstanding⟩ := hr.origins.submissions s sub hsub
  unfold Standing at hstanding
  rw [haccepted] at hstanding
  obtain ⟨⟨n, batch, c, hdelivers⟩, -⟩ := hstanding
  have hnodes : e.nodesOf n = [node] := by
    have hresolved := hdelivers.resolved
    rw [htarget] at hresolved
    exact (Except.ok.inj hresolved).symm
  obtain ⟨pre, post, -, hpre⟩ := hhanded.split
  obtain ⟨c', hc', hid⟩ :=
    (owned_of_run h).collations s sub handle hsub haccepted
  rw [hdelivers.collation] at hc'
  cases hc'
  refine ⟨⟨c, hdelivers.collation, hid, ?_⟩, ?_⟩
  · rw [← hdelivers.nodes_eq (reached_of_run hpre).ordered hr.staffed hr.filled,
      hnodes]
  · exact (outright_of_run h).onlyJob hr (probed_of_run h) hsub hneeds hfresh
      haccepted hdelivers hnodes

end

/-- A request is forwarded to a coordinator, which may be unknown or in any
state. If its identifier is its own, whatever the request is and whoever else
hands in what, it is decided about at once, and it is rejected only because the
engine was stopped or the registry was full; then nobody is called. If it is
accepted, the coordinator is all that is waited for, and it is called once: not
as long as the job for it waits, once from then on, and the run can always go on
to that point. What it gets reads as neither fanned out nor a probe, in whatever
order, and except for the mark that it was fanned out it is what any other
target would get. -/
theorem forwarded_once (config : EngineConfig)
    (entries : List (Node × Connectivity)) (wants : Bool) {events : List Event}
    {e : Engine}
    (h : (start config (.ofEntries entries) wants).run events = some e)
    {s : Nat} {sub : Submission} (hsub : e.submissions[s]? = some sub)
    {node : Node} (htarget : sub.target = .coordinator node) {r : Request}
    {given : List (String × String)}
    (hrequest : sub.request = Request.withHeaders
      { r with headers := [] } given)
    (hfresh : ∀ (s' : Nat) sub', e.submissions[s']? = some sub' →
      sub'.id = sub.id → s' = s) :
    (∀ round, sub.phase ≠ .verifying round) ∧
    (∀ fault, sub.phase = .rejected fault →
      (fault = .stopped ∨ fault = .tooManyRequests config.registry.limit) ∧
        e.callsWith sub.id = []) ∧
    (∀ handle, sub.phase = .accepted handle →
      (∃ c, e.registry.collations[handle]? = some c ∧ c.id = sub.id ∧
        c.expected = [node]) ∧
      (∃ (j : Nat) (job : Job), e.jobs[j]? = some job ∧ job.node = node ∧
        (job.phase = .waiting ∧ e.callsWith sub.id = [] ∨
          job.phase ≠ .waiting ∧ ∃ c, e.callsWith sub.id = [c] ∧ c.node = node ∧
            c.isProbe = false ∧ c.outbound = sub.outbound)) ∧
      ∃ more e' c, e.run more = some e' ∧ e'.submissions = e.submissions ∧
        e'.callsWith sub.id = [c]) ∧
    (∀ l : Headers, l.Perm sub.outbound.headers →
      l.Reads sub.id false false (r.user.map ActingUser.chain)) ∧
    ∀ target : Target, target.isCoordinator = false →
      let fanned := ({ sub with target } : Submission).outbound
      sub.outbound = { fanned with headers := sub.outbound.headers } ∧
        ∀ entry, entry ∈ sub.outbound.headers ↔
          entry ∈ fanned.headers ∧ entry.1 ≠ Header.replicated := by
  have hneeds := Submission.needsRound_of_coordinator htarget
  have hout : sub.outbound = .ofGiven sub.id sub.seed
      { r with indicate := false } given := by
    rw [Submission.outbound_eq hrequest, htarget]
    rfl
  refine ⟨fun round hverifying => ?_, fun fault hrejected =>
    ⟨fault_of_coordinator h hsub hfresh htarget hrejected,
      callsWith_eq_nil h hsub hfresh hneeds hrejected⟩,
    fun handle haccepted => ?_, fun l hperm => ?_, fun target htarget' => ?_⟩
  · obtain ⟨b, -, -, hstanding⟩ :=
      (reached_of_run h).origins.submissions s sub hsub
    unfold Standing at hstanding
    rw [hverifying] at hstanding
    cases hneeds.symm.trans hstanding.1
  · obtain ⟨hcollation, j, job, honly⟩ :=
      onlyJob_of_coordinator h hsub hfresh htarget haccepted
    refine ⟨hcollation, ⟨j, job, honly.found, honly.goesTo,
      honly.callsWith_eq (reached_of_run h).staffed⟩, ?_⟩
    obtain ⟨more, e', hmore, hsame, hend⟩ := all_jobs_can_end h
    have h' := run_trans h hmore
    obtain ⟨-, j', job', honly'⟩ :=
      onlyJob_of_coordinator h' (hsame ▸ hsub) (hsame ▸ hfresh)
        htarget haccepted
    rcases honly'.callsWith_eq (reached_of_run h').staffed with
      ⟨hwaiting, -⟩ | ⟨-, c, hcalls, -⟩
    · have hdone := hend job' (List.mem_of_getElem? honly'.found)
      rw [Job.isDone, hwaiting] at hdone
      cases hdone
    · exact ⟨more, e', c, hmore, hsame, hcalls⟩
  · rw [hout] at hperm
    exact Outbound.reads_ofGiven _ _ _ _ hperm
  · intro fanned
    have hprepare : ∀ request, target.prepare request = request := by
      intro request
      cases target with
      | coordinator => cases htarget'
      | allConnected | nodes => rfl
    refine ⟨?_, fun entry => ?_⟩
    · have hfanned : fanned = .ofRequest sub.id sub.seed sub.request := by
        rw [← hprepare sub.request]
        rfl
      rw [hfanned, Submission.outbound, htarget]
      rfl
    · have hfanned : fanned = .ofGiven sub.id sub.seed r given := by
        have hsame : ({ sub with target } : Submission).request = _ := hrequest
        rw [← hprepare r]
        exact Submission.outbound_eq hsame
      rw [hout, hfanned]
      exact Outbound.mem_unmarked entry

/-- The directory does not know the coordinator, and a member has left. The
caller has tried both marks, and the request would be verified and tell that it
was fanned out. -/
theorem forwarded_once_unknown :
    let k : Node := ⟨"k", "localhost", 9⟩
    let a : Node := ⟨"a", "localhost", 1⟩
    let base : Request :=
      { method := .post, uri := "/", user := some ⟨"u", []⟩ }
    let given := [("x-request-replicated", "true"), ("accept", "json"),
      ("X-VALIDATION-EXPECTS", "202-accepted")]
    let e₀ := start {} (.ofEntries [(a, .disconnected)]) false
    let events : List Event :=
      [.submit (.coordinator k) (Request.withHeaders
        { base with headers := [] } given) "r" "s",
        .submit (.nodes [a]) { method := .put, uri := "/", verify := false }
          "q" "t",
        .startJob, .startJob]
    ∃ e sub c, e₀.run events = some e ∧ e.submissions[0]? = some sub ∧
      e.callsWith "r" = [c] ∧ c.node = k ∧ c.isProbe = false ∧
      c.outbound.headers.Reads "r" false false (some "<u>") := by
  intro k a base given e₀ events
  have hrun : (e₀.run events).map (fun e =>
      (e.submissions.map fun sub => (sub.id, sub.target, sub.phase),
        (e.callsWith "r").length)) =
      some ([("r", .coordinator k, .accepted 0),
        ("q", .nodes [a], .accepted 1)], 1) := by
    decide +kernel
  obtain ⟨e, he, hseen⟩ := Option.map_eq_some_iff.1 hrun
  rw [Prod.mk.injEq] at hseen
  obtain ⟨hsubmissions, hlength⟩ := hseen
  have hget : ∀ i : Nat, e.submissions[i]?.map
      (fun sub => (sub.id, sub.target, sub.phase)) =
      [("r", .coordinator k, .accepted 0),
        ("q", .nodes [a], .accepted 1)][i]? := fun i => by
    rw [← List.getElem?_map, hsubmissions]
  obtain ⟨sub, hsub, hseen⟩ := Option.map_eq_some_iff.1 (hget 0)
  simp only [Prod.mk.injEq] at hseen
  obtain ⟨hid, htarget, haccepted⟩ := hseen
  have hrequest : sub.request =
      Request.withHeaders { base with headers := [] } given := by
    have hmem := submit_mem_of_run he hsub
    rw [htarget] at hmem
    simp only [events, List.mem_cons, Event.submit.injEq, reduceCtorEq,
      List.not_mem_nil, or_false, false_and, true_and] at hmem
    exact hmem.1
  have hfresh : ∀ (s' : Nat) sub', e.submissions[s']? = some sub' →
      sub'.id = sub.id → s' = 0 := by
    intro s' sub' hsub' hid'
    have hseen := hget s'
    rw [hsub', Option.map_some, hid', hid] at hseen
    match s', hseen with
    | 0, _ => rfl
    | 1, hseen =>
        exact absurd (Prod.mk.inj (Option.some.inj hseen)).1 (by decide)
  obtain ⟨-, -, hforwarded, hreads, -⟩ :=
    forwarded_once {} _ false he hsub htarget hrequest hfresh
  obtain ⟨-, ⟨j, job, -, -, hcalls⟩, -⟩ := hforwarded 0 haccepted
  rw [hid] at hcalls hreads
  rcases hcalls with ⟨-, hnone⟩ | ⟨-, c, hcall, hnode, hprobe, hout⟩
  · rw [hnone] at hlength
    cases hlength
  · refine ⟨e, sub, c, he, hsub, hcall, hnode, hprobe, ?_⟩
    rw [hout]
    exact hreads _ (List.Perm.refl _)

end Engine

end Fanout
