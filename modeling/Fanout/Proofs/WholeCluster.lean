import Fanout.Proofs.Gate
import Fanout.Proofs.Outcome

/-!
# A change to the whole cluster

Such a change goes to all connected nodes, and it is refused as long as a member
is on its way out or gone, because a member would be left behind. A member on
its way in is left behind just as well, but only a request that is verified is
refused for it. So there is one mixture of states in which a member is skipped
in silence, and the theorem below says which: an unverified change, while no
member is leaving and some member is connecting.

What is decided here is decided in the state in which the request is handed in.
The round that may follow asks the nodes that were chosen then.
-/

namespace Fanout

namespace Membership

/-- All nodes that the directory knows. -/
def nodes (m : Membership) : List Node := m.entries.map (·.1)

theorem first?_eq_none {m : Membership} {test : Connectivity → Bool} :
    m.first? test = none ↔ ∀ entry ∈ m.entries, test entry.2 = false := by
  rw [first?, Option.map_eq_none_iff, List.find?_eq_none]
  exact forall_congr' fun entry => imp_congr_right fun _ =>
    Bool.not_eq_true _ ▸ Iff.rfl

/-- Nobody is skipped just if everybody is connected. -/
theorem connected_eq_nodes {m : Membership} :
    m.connected = m.nodes ↔ ∀ entry ∈ m.entries, entry.2 = .connected := by
  refine ⟨fun h entry hentry => ?_, fun h => ?_⟩
  · have hlength := congrArg List.length h
    rw [connected, nodes, List.length_map, List.length_map] at hlength
    exact eq_of_beq (List.length_filter_eq_length_iff.1 hlength entry hentry)
  · rw [connected, nodes, List.filter_eq_self.2 fun entry hentry =>
      beq_iff_eq.2 (h entry hentry)]

end Membership

/-- What is checked before a change goes to the connected nodes. -/
theorem Target.resolve_allConnected {m : Membership} {request : Request}
    {nodes : List Node} (hmutable : request.isMutable = true)
    (h : Target.allConnected.resolve m request = .ok nodes) :
    nodes = m.connected ∧ (∀ entry ∈ m.entries, isLeaving entry.2 = false) ∧
      (request.verify = true → ∀ entry ∈ m.entries, entry.2 ≠ .connecting) := by
  rw [resolve, if_pos hmutable] at h
  split at h
  · cases h
  · next hready =>
      rw [unready?] at hready
      split at hready
      · cases hready
      · next hconnecting =>
          split at h
          · cases h
          · cases h
            refine ⟨rfl, Membership.first?_eq_none.1
              (Option.map_eq_none_iff.1 hready),
              fun hverify entry hentry hstate => ?_⟩
            rw [if_pos hverify] at hconnecting
            have hne := Membership.first?_eq_none.1 hconnecting entry hentry
            rw [hstate] at hne
            cases hne

/-- Where no member is leaving, a member that is not connected is connecting. -/
theorem Membership.connected_eq_nodes_of_staying {m : Membership}
    (h : ∀ entry ∈ m.entries, Target.isLeaving entry.2 = false) :
    m.connected = m.nodes ↔ ∀ entry ∈ m.entries, entry.2 ≠ .connecting := by
  rw [connected_eq_nodes]
  refine forall_congr' fun entry => forall_congr' fun hentry => ?_
  have hstays := h entry hentry
  cases hstate : entry.2 with
  | connecting => exact iff_of_false nofun fun hne => hne rfl
  | connected => exact iff_of_true rfl nofun
  | disconnecting | disconnected =>
      rw [hstate] at hstays
      cases hstays

namespace Engine

/-- A change to the whole cluster that is accepted is delivered to the nodes
that were connected when it was handed in. These are all members, unless it is
not verified and some member was connecting. If it is not accepted, no call
other than a probe is made for it. -/
theorem whole_cluster (config : EngineConfig)
    (entries : List (Node × Connectivity)) (wants : Bool) {events : List Event}
    {e : Engine}
    (h : (start config (.ofEntries entries) wants).run events = some e)
    {s : Nat} {sub : Submission} (hsub : e.submissions[s]? = some sub)
    (htarget : sub.target = .allConnected)
    (hmutable : sub.request.isMutable = true)
    (hfresh : ∀ (s' : Nat) sub', e.submissions[s']? = some sub' →
      sub'.id = sub.id → s' = s) :
    ∃ b, HandedIn (start config (.ofEntries entries) wants) events s sub b ∧
      (∀ handle, sub.phase = .accepted handle →
        ∃ c, e.registry.collations[handle]? = some c ∧
          c.expected = b.members.connected ∧ (c.expected = b.members.nodes ↔
            ∀ entry ∈ b.members.entries, entry.2 ≠ .connecting) ∧
          (sub.request.verify = true → c.expected = b.members.nodes)) ∧
      ((∀ handle, sub.phase ≠ .accepted handle) →
        ∀ (k : Nat) c, ¬ Carries e sub k c) := by
  have hr := reached_of_run h
  obtain ⟨b, hhanded, -, hstanding⟩ := hr.origins.submissions s sub hsub
  refine ⟨b, hhanded, fun handle haccepted => ?_, fun hnever k c hc => ?_⟩
  · unfold Standing at hstanding
    rw [haccepted] at hstanding
    obtain ⟨⟨n, batch, c, hdelivers⟩, -⟩ := hstanding
    obtain ⟨pre, post, -, hpre⟩ := hhanded.split
    have hresolved := hdelivers.resolved
    rw [hdelivers.nodes_eq (reached_of_run hpre).ordered hr.staffed hr.filled,
      htarget] at hresolved
    obtain ⟨hnodes, hstaying, hverified⟩ :=
      Target.resolve_allConnected hmutable hresolved
    have hall := Membership.connected_eq_nodes_of_staying hstaying
    refine ⟨c, hdelivers.collation, hnodes, hnodes ▸ hall, fun hverify => ?_⟩
    rw [hnodes]
    exact hall.2 (hverified hverify)
  · obtain ⟨handle, haccepted, -⟩ := Carries.serving hr hsub hfresh hc
    exact hnever handle haccepted

/-- Two members are connected, and both are waited for. -/
theorem whole_cluster_two_members :
    let a : Node := ⟨"a", "localhost", 1⟩
    let b : Node := ⟨"b", "localhost", 2⟩
    let e₀ := start {} (.ofEntries [(b, .connected), (a, .connected)]) false
    let events : List Event :=
      [.submit .allConnected { method := .put, uri := "/" } "r" "s",
        .startProbe 0, .startProbe 0, .arrive 1 (.ok { status := 202 }),
        .finish 1,
        .arrive 0 (.ok { status := 202 }), .finish 0]
    ∃ e sub b₀ c, e₀.run events = some e ∧ e.submissions[0]? = some sub ∧
      sub.phase = .accepted 0 ∧ HandedIn e₀ events 0 sub b₀ ∧
      e.registry.collations[0]? = some c ∧ c.expected = b₀.members.nodes := by
  intro a b e₀ events
  have hrun : (e₀.run events).map (fun e => e.submissions.map fun sub =>
      (sub.target, sub.request.isMutable, sub.request.verify,
        match sub.phase with
        | .accepted handle => some handle
        | _ => none)) =
      some [(.allConnected, true, true, some 0)] := by
    decide +kernel
  obtain ⟨e, he, hseen⟩ := Option.map_eq_some_iff.1 hrun
  obtain ⟨sub, hsub, hseen⟩ := List.map_eq_singleton_iff.1 hseen
  simp only [Prod.mk.injEq] at hseen
  obtain ⟨htarget, hmutable, hverify, hphase⟩ := hseen
  have haccepted : sub.phase = .accepted 0 := by
    split at hphase
    · next handle hhandle =>
        cases hphase
        exact hhandle
    · cases hphase
  have hget : e.submissions[0]? = some sub := by rw [hsub]; rfl
  have hfresh : ∀ (s' : Nat) sub', e.submissions[s']? = some sub' →
      sub'.id = sub.id → s' = 0 := by
    intro s' sub' hs' _
    have hlt := (List.getElem?_eq_some_iff.1 hs').1
    rw [hsub, List.length_singleton] at hlt
    omega
  obtain ⟨b₀, hhanded, hdelivered, -⟩ :=
    whole_cluster {} _ false he hget htarget hmutable hfresh
  obtain ⟨c, hc, -, -, hall⟩ := hdelivered 0 haccepted
  exact ⟨e, sub, b₀, c, he, hget, haccepted, hhanded, hc, hall hverify⟩

/-- A member that is connecting is skipped by a change that is not verified,
though the directory stays the same. -/
theorem whole_cluster_skips_connecting :
    let a : Node := ⟨"n1", "n1", 8080⟩
    let b : Node := ⟨"n2", "n2", 8080⟩
    let e₀ := start {} (.ofEntries [(a, .connected), (b, .connecting)]) false
    let request : Request := { method := .put, uri := "/", verify := false }
    request.isMutable = true ∧
      ∃ e sub c, e₀.run [.submit .allConnected request "r" "s"] = some e ∧
        e.members.entries = e₀.members.entries ∧ e.submissions = [sub] ∧
        sub.phase = .accepted 0 ∧ e.registry.collations = [c] ∧
        c.expected = [a] ∧
        e.members.nodes = [a, b] := by
  intro a b e₀ request
  have hrun : (e₀.run [.submit .allConnected request "r" "s"]).map (fun e =>
      (e.members.entries, e.members.nodes,
        e.registry.collations.map (·.expected),
        e.submissions.map fun sub => match sub.phase with
          | .accepted handle => some handle
          | _ => none)) =
      some (e₀.members.entries, [a, b], [[a]], [some 0]) := by
    decide +kernel
  obtain ⟨e, he, hseen⟩ := Option.map_eq_some_iff.1 hrun
  simp only [Prod.mk.injEq] at hseen
  obtain ⟨hentries, hnodes, hexpected, hphases⟩ := hseen
  obtain ⟨c, hc, hc'⟩ := List.map_eq_singleton_iff.1 hexpected
  obtain ⟨sub, hsub, hphase⟩ := List.map_eq_singleton_iff.1 hphases
  refine ⟨rfl, e, sub, c, he, hentries, hsub, ?_, hc, hc', hnodes⟩
  split at hphase
  · next handle hhandle =>
      cases hphase
      exact hhandle
  · cases hphase

end Engine

end Fanout
