import Fanout.Proofs.Heading
import Fanout.Proofs.Owners
import Fanout.Proofs.Staleness
import Fanout.Proofs.Verdict
import Fanout.Proofs.WholeCluster

/-!
# Whether a request is accepted

Much is checked before a request is accepted: whether the engine runs, who is a
member and in which state, whom the request is for and how it is made, what its
targets say when they are asked, and whether there is room to wait for their
answers. Several checks can fail at once, and then the first of them decides
which fault the caller hears of. The order is written down here as a list of
reasons, each with the kind of its fault.

A directory has no order. The checks run through it one member after the other
and stop at the first that fails, so which member a fault names depends on how
the directory is listed. The kind does not, nor do the targets; the reasons are
therefore stated of a listing in any order, and only by who occurs in it.
-/

namespace Fanout

/-! ## Decisions by the first reason that applies -/

/-- What a fault is about, without whom or what it names. -/
inductive Fault.Kind where
  | illegalArgument
  | invalidTarget
  | connecting
  | disconnected
  | verificationFailed
  | tooManyRequests
  | stopped
  | nodeClient
  | configuration
  deriving DecidableEq, Repr

def Fault.kind : Fault → Fault.Kind
  | illegalArgument _ => .illegalArgument
  | invalidTarget _ => .invalidTarget
  | connecting _ => .connecting
  | disconnected _ => .disconnected
  | verificationFailed .. => .verificationFailed
  | tooManyRequests _ => .tooManyRequests
  | stopped => .stopped
  | nodeClient _ => .nodeClient
  | configuration _ => .configuration

/-- A decision is the kind of the first reason that applies, or none if no
reason does. -/
def Decides : List (Prop × Fault.Kind) → Option Fault.Kind → Prop
  | [], decision => decision = none
  | (reason, kind) :: rest, decision =>
    reason ∧ decision = some kind ∨ ¬ reason ∧ Decides rest decision

section

variable {reasons rest : List (Prop × Fault.Kind)} {reason : Prop}
  {kind : Fault.Kind} {decision : Option Fault.Kind}

theorem Decides.here (h : reason) :
    Decides ((reason, kind) :: rest) (some kind) :=
  Or.inl ⟨h, rfl⟩

theorem Decides.skip (h : ¬ reason) (hrest : Decides rest decision) :
    Decides ((reason, kind) :: rest) decision :=
  Or.inr ⟨h, hrest⟩

theorem Decides.unique {decision' : Option Fault.Kind}
    (h : Decides reasons decision) (h' : Decides reasons decision') :
    decision = decision' := by
  induction reasons with
  | nil => exact h.trans h'.symm
  | cons entry rest ih =>
      rcases h with ⟨hreason, rfl⟩ | ⟨hnot, h⟩
      · rcases h' with ⟨-, rfl⟩ | ⟨hnot, -⟩
        · rfl
        · exact absurd hreason hnot
      · rcases h' with ⟨hreason, -⟩ | ⟨-, h'⟩
        · exact absurd hreason hnot
        · exact ih h h'

theorem Decides.append_some (h : Decides reasons (some kind)) :
    Decides (reasons ++ rest) (some kind) := by
  induction reasons with
  | nil => cases h
  | cons entry reasons ih =>
      rcases h with h | ⟨hnot, h⟩
      · exact Or.inl h
      · exact Or.inr ⟨hnot, ih h⟩

theorem Decides.append_none (h : Decides reasons none)
    (hrest : Decides rest decision) : Decides (reasons ++ rest) decision := by
  induction reasons with
  | nil => exact hrest
  | cons entry reasons ih =>
      rcases h with ⟨-, hsome⟩ | ⟨hnot, h⟩
      · cases hsome
      · exact Or.inr ⟨hnot, ih h⟩

end

/-! ## Who is asked for -/

namespace Target

/-- The nodes that a target stands for, in a directory that is listed in any
order. -/
def members (listing : List (Node × Connectivity)) : Target → List Node
  | allConnected =>
    ascending ((listing.filter fun entry => entry.2 == .connected).map (·.1))
  | nodes set => ascending set
  | coordinator node => [node]

/-- What can be wrong with a target, and with a request that is made to it. -/
def reasons (listing : List (Node × Connectivity)) (request : Request)
    (target : Target) : List (Prop × Fault.Kind) :=
  [(target = .allConnected ∧ request.isMutable = true ∧ request.verify = true ∧
      ∃ n, (n, .connecting) ∈ listing, .connecting),
    (target = .allConnected ∧ request.isMutable = true ∧
      ∃ n, (n, .disconnected) ∈ listing ∨
        (n, .disconnecting) ∈ listing, .disconnected),
    (target.members listing = [], .invalidTarget),
    ((∃ set, target = .nodes set) ∧
      request.method ∈ [.get, .head, .options, .delete], .illegalArgument)]

theorem isAscending_members (listing : List (Node × Connectivity))
    (target : Target) : IsAscending (target.members listing) := by
  cases target with
  | allConnected => exact isAscending_ascending _
  | nodes set => exact isAscending_ascending _
  | coordinator node => exact List.pairwise_singleton _ _

theorem mem_members_allConnected {listing : List (Node × Connectivity)}
    {n : Node} :
    n ∈ allConnected.members listing ↔ (n, .connected) ∈ listing := by
  rw [members, mem_ascending]
  simp

end Target

theorem Target.isLeaving_iff (s : Connectivity) :
    isLeaving s = true ↔ s = .disconnected ∨ s = .disconnecting := by
  simp [isLeaving]

theorem ascending_eq_nil {l : List Node} : ascending l = [] ↔ l = [] := by
  simp only [List.eq_nil_iff_forall_not_mem, mem_ascending]

section

variable {m : Membership} {listing : List (Node × Connectivity)}
  {request : Request} {target : Target}

theorem Membership.first?_eq_some {test : Connectivity → Bool} {n : Node}
    (h : m.first? test = some n) : ∃ s, (n, s) ∈ m.entries ∧ test s = true := by
  obtain ⟨entry, hentry, rfl⟩ := Option.map_eq_some_iff.1 h
  have htest := List.find?_some hentry
  exact ⟨entry.2, List.mem_of_find?_eq_some hentry, htest⟩

theorem Membership.first?_isSome (hperm : listing.Perm m.entries)
    (test : Connectivity → Bool) :
    (∃ n, m.first? test = some n) ↔
      ∃ n s, (n, s) ∈ listing ∧ test s = true := by
  constructor
  · rintro ⟨n, h⟩
    obtain ⟨s, hmem, htest⟩ := first?_eq_some h
    exact ⟨n, s, hperm.mem_iff.2 hmem, htest⟩
  · rintro ⟨n, s, hmem, htest⟩
    cases hfirst : m.first? test with
    | some n => exact ⟨n, rfl⟩
    | none =>
        have hnot := first?_eq_none.1 hfirst _ (hperm.mem_iff.1 hmem)
        rw [htest] at hnot
        cases hnot

theorem Target.members_allConnected (hperm : listing.Perm m.entries) :
    allConnected.members listing = ascending m.connected := by
  refine (isAscending_ascending _).ext (isAscending_ascending _) fun n => ?_
  rw [mem_ascending, mem_ascending]
  exact ((hperm.filter _).map _).mem_iff

/-- What the check of a change to the whole cluster finds, in whatever order it
runs through the directory. -/
theorem Target.unready?_cases (hperm : listing.Perm m.entries)
    (verified : Bool) :
      (∃ node, unready? verified m = some (.connecting node) ∧ verified = true ∧
      ∃ n, (n, .connecting) ∈ listing) ∨
    ¬ (verified = true ∧ ∃ n, (n, .connecting) ∈ listing) ∧
      ((∃ node, unready? verified m = some (.disconnected node) ∧
        ∃ n, (n, .disconnected) ∈ listing ∨ (n, .disconnecting) ∈ listing) ∨
      unready? verified m = none ∧
        ¬ ∃ n, (n, .disconnected) ∈ listing ∨
        (n, .disconnecting) ∈ listing) := by
  have hconnecting : (∃ n, m.first? (· == .connecting) = some n) ↔
      ∃ n, (n, .connecting) ∈ listing := by
    simp [Membership.first?_isSome hperm]
  have hleaving : (∃ n, m.first? isLeaving = some n) ↔
      ∃ n, (n, .disconnected) ∈ listing ∨ (n, .disconnecting) ∈ listing := by
    simp only [Membership.first?_isSome hperm, isLeaving_iff, and_or_left,
      exists_or, exists_eq_right]
  unfold unready?
  rw [← hconnecting, ← hleaving]
  by_cases hfirst : verified = true ∧ ∃ n, m.first? (· == .connecting) = some n
  · left
    obtain ⟨hverified, n, hn⟩ := hfirst
    rw [if_pos hverified, hn]
    exact ⟨_, rfl, hverified, n, rfl⟩
  · right
    refine ⟨hfirst, ?_⟩
    have hnone : (if verified =
        true then m.first? (· == .connecting) else none) = none := by
      split
      · next hverified =>
          exact Option.eq_none_iff_forall_ne_some.2 fun n hn =>
            hfirst ⟨hverified, n, hn⟩
      · rfl
    rw [hnone]
    cases m.first? isLeaving with
    | some n => exact Or.inl ⟨_, rfl, n, rfl⟩
    | none => exact Or.inr ⟨rfl, nofun⟩

/-- Who is on the way in or out matters only to a request to the whole
cluster. -/
theorem Target.decides_of_ne (hne : target ≠ .allConnected)
    {decision : Option Fault.Kind}
    (h : Decides ((target.reasons listing request).drop 2) decision) :
    Decides (target.reasons listing request) decision :=
  .skip (fun h => hne h.1) (.skip (fun h => hne h.1) h)

/-- Once nobody keeps a request back from the whole cluster, only the lack of
targets can. -/
theorem Target.resolve_allConnected_decides (hperm : listing.Perm m.entries)
    (hready :
      (if request.isMutable then unready? request.verify m else none) = none)
    (hconnecting : ¬ (request.isMutable = true ∧ request.verify = true ∧
      ∃ n, (n, .connecting) ∈ listing))
    (hleaving : ¬ (request.isMutable = true ∧
      ∃ n, (n, .disconnected) ∈ listing ∨ (n, .disconnecting) ∈ listing)) :
    (∃ fault, allConnected.resolve m request = .error fault ∧
      Decides (allConnected.reasons listing request) (some fault.kind)) ∨
    ∃ nodes, allConnected.resolve m request = .ok nodes ∧
      Decides (allConnected.reasons listing request) none ∧
      ascending nodes = allConnected.members listing := by
  have hmembers := members_allConnected hperm
  have hkept : ∀ {decision rest}, Decides rest decision →
      Decides ((allConnected.reasons listing request).take 2 ++ rest)
        decision :=
    fun hrest => .skip (fun h => hconnecting h.2)
      (.skip (fun h => hleaving h.2) hrest)
  rw [resolve, hready]
  dsimp only
  by_cases hempty : m.connected = []
  · rw [hempty] at hmembers ⊢
    exact Or.inl ⟨_, rfl, hkept (.here hmembers)⟩
  · rw [if_neg (fun h => hempty (List.isEmpty_iff.1 h))]
    refine Or.inr ⟨_, rfl, hkept (.skip (fun h => ?_) (.skip (by simp) rfl)),
      hmembers.symm⟩
    rw [hmembers] at h
    exact hempty (ascending_eq_nil.1 h)

/-- How the targets are chosen, or why they are not. -/
theorem Target.resolve_decides (hperm : listing.Perm m.entries)
    (request : Request) (target : Target) :
    (∃ fault, target.resolve m request = .error fault ∧
      Decides (target.reasons listing request) (some fault.kind)) ∨
    ∃ nodes, target.resolve m request = .ok nodes ∧
      Decides (target.reasons listing request) none ∧
      ascending nodes = target.members listing := by
  cases target with
  | coordinator node =>
      have hmembers : (coordinator node).members listing ≠ [] :=
        List.cons_ne_nil node []
      exact Or.inr ⟨[node], rfl,
        decides_of_ne (by simp) (.skip hmembers (.skip (by simp) rfl)), rfl⟩
  | nodes set =>
      have hne : nodes set ≠ allConnected := by simp
      rw [resolve]
      by_cases hempty : set = []
      · subst hempty
        exact Or.inl ⟨_, rfl, decides_of_ne hne (.here rfl)⟩
      · have hmembers : (nodes set).members listing ≠ [] :=
          fun h => hempty (ascending_eq_nil.1 h)
        rw [if_neg (fun h => hempty (List.isEmpty_iff.1 h))]
        by_cases hquery : request.method.usesQuery = true
        · rw [if_pos hquery]
          exact Or.inl ⟨_, rfl, decides_of_ne hne (.skip hmembers
            (.here ⟨⟨set, rfl⟩, (Method.usesQuery_iff _).1 hquery⟩))⟩
        · rw [if_neg hquery]
          refine Or.inr ⟨_, rfl, decides_of_ne hne (.skip hmembers
            (.skip (fun h => hquery ((Method.usesQuery_iff _).2 h.2)) rfl)), ?_⟩
          exact ascending_eq_self (isAscending_ascending set)
  | allConnected =>
      by_cases hmutable : request.isMutable = true
      · rcases unready?_cases hperm request.verify with
          ⟨node, heq, hverify, hfound⟩ |
            ⟨hnot, ⟨node, heq, hfound⟩ | ⟨heq, hnone⟩⟩
        · rw [resolve, if_pos hmutable, heq]
          exact Or.inl ⟨_, rfl, .here ⟨rfl, hmutable, hverify, hfound⟩⟩
        · rw [resolve, if_pos hmutable, heq]
          exact Or.inl ⟨_, rfl, .skip (fun h => hnot h.2.2)
            (.here ⟨rfl, hmutable, hfound⟩)⟩
        · refine resolve_allConnected_decides hperm
            ?_ (fun h => hnot h.2) fun h => hnone h.2
          rw [if_pos hmutable, heq]
      · exact resolve_allConnected_decides hperm (if_neg hmutable)
          (fun h => hmutable h.1) fun h => hmutable h.1

/-- In whatever order a directory is listed, the same targets are chosen, or
none for the same kind of reason. -/
theorem Target.resolve_any_order (hperm : listing.Perm m.entries)
    (request : Request) (target : Target) :
    ((target.resolve ⟨listing⟩ request).map ascending).mapError Fault.kind =
      ((target.resolve m request).map ascending).mapError Fault.kind := by
  rcases resolve_decides (m := ⟨listing⟩) (List.Perm.refl listing)
    request target with
    ⟨fault, heq, h⟩ | ⟨nodes, heq, h, hnodes⟩
  · rcases resolve_decides hperm request target with
      ⟨fault', heq', h'⟩ | ⟨nodes', heq', h', -⟩
    · rw [heq, heq']
      exact congrArg Except.error (Option.some.inj (h.unique h'))
    · cases h.unique h'
  · rcases resolve_decides hperm request target with
      ⟨fault', heq', h'⟩ | ⟨nodes', heq', h', hnodes'⟩
    · cases h.unique h'
    · rw [heq, heq']
      exact congrArg Except.ok (hnodes.trans hnodes'.symm)

/-! ## How the targets are connected -/

/-- What can be wrong with targets that are to be asked. -/
def stateReasons (listing : List (Node × Connectivity)) (nodes : List Node) :
    List (Prop × Fault.Kind) :=
  [(∃ n ∈ nodes, (n, .connecting) ∈ listing, .connecting),
    (∃ n ∈ nodes, (n, .connected) ∉ listing, .disconnected)]

theorem Membership.unconnected?_any_order (hperm : listing.Perm m.entries)
    (hnodup : (m.entries.map (·.1)).Nodup) (nodes : List Node) :
    Membership.unconnected? nodes ⟨listing⟩ = m.unconnected? nodes := by
  have hstate : ∀ n, Membership.state? n ⟨listing⟩ = m.state? n :=
    valueAt?_perm hperm hnodup
  simp only [unconnected?, hstate]

/-- A target that is on its way in comes before any that is not there. -/
theorem Membership.unconnected?_decides (hperm : listing.Perm m.entries)
    (hnodup : (m.entries.map (·.1)).Nodup) (nodes : List Node) :
    Decides (stateReasons listing nodes)
      ((m.unconnected? nodes).map Fault.kind) := by
  have hstate : ∀ n s, (n, s) ∈ listing ↔ m.state? n = some s := fun n s => by
    rw [hperm.mem_iff]
    exact mem_iff_valueAt? hnodup
  unfold unconnected? stateReasons
  simp only [hstate]
  split
  · next n hfound =>
      have htest := List.find?_some hfound
      exact .here ⟨n, List.mem_of_find?_eq_some hfound, eq_of_beq htest⟩
  · next hnone =>
      rw [List.find?_eq_none] at hnone
      refine .skip (fun ⟨n, hn, hconnecting⟩ =>
        hnone n hn (beq_iff_eq.2 hconnecting)) ?_
      cases hother : nodes.find? fun n => m.state? n != some .connected with
      | some n =>
          have htest := List.find?_some hother
          exact .here ⟨n, List.mem_of_find?_eq_some hother, bne_iff_ne.1 htest⟩
      | none =>
          rw [List.find?_eq_none] at hother
          exact .skip (fun ⟨n, hn, hstate⟩ => hother n hn (bne_iff_ne.2 hstate))
            rfl

end

/-! ## Room in the registry -/

namespace Registry

/-- The entries that have not expired. A collation that nobody has noticed to be
over counts as complete from now on only. -/
def unexpired (now : Instant) (r : Registry) : List Entry :=
  r.entries.filter fun e => (r.collation? e.handle).all fun c =>
    !isExpired now r.config.retention e (c.settle now)

theorem entries_purge_of_placed {r : Registry} (now : Instant)
    (h : ∀ e ∈ r.entries, ∃ c, r.collations[e.handle]? = some c) :
    (r.purge now).entries = r.unexpired now := by
  rw [entries_purge]
  refine List.filter_congr fun e he => ?_
  obtain ⟨c, hc⟩ := h e he
  have hconfig : (r.settleHeld now).config = r.config :=
    (kept_foldl_settle now r.entries r).config
  rw [expired, collation?_settleHeld he hc now, hconfig, collation?, hc]
  rfl

theorem entries_purge_make {r : Registry} (hr : r.Sound) (new : Collation)
    (now : Instant) : ((r.make new).purge now).entries = r.unexpired now := by
  have hmake : ∀ e ∈ r.entries, ∃ c, r.collations[e.handle]? = some c ∧
      (r.make new).collations[e.handle]? = some c := fun e he => by
    obtain ⟨c, hc, -⟩ := hr.placed e he
    exact ⟨c, hc, getElem?_append_of_some hc _⟩
  have hplaced : ∀ e ∈ (r.make new).entries,
      ∃ c, (r.make new).collations[e.handle]? = some c :=
    fun e he => (hmake e he).imp fun _ => And.right
  rw [entries_purge_of_placed now hplaced]
  refine List.filter_congr fun e he => ?_
  obtain ⟨c, hc, hc'⟩ := hmake e he
  rw [collation?, collation?, hc, hc']
  rfl

/-- Whether there is room for a collation depends on what has not expired, and
on nothing else if its identifier is free. -/
theorem register_result {r : Registry} (hr : r.Sound) (new : Collation)
    (hfree : r.contains new.id = false) (now : Instant) :
    (r.register now new).2 =
      if r.config.limit ≤ (r.unexpired now).length then
        .error (.tooManyRequests r.config.limit)
      else .ok r.collations.length := by
  have hconfig : ((r.make new).withRoom now).config = r.config :=
    (kept_withRoom now (r.make new)).config
  have hnone : ((r.make new).withRoom now).contains new.id = false :=
    contains_eq_false.2 (entry?_of_named (r := r.make new)
      (contains_eq_false.1 hfree) (named_withRoom now (r.make new)))
  -- Without a purge there is room already, and then there is no less of it
  -- after one.
  have hfull : r.config.limit ≤ ((r.make new).withRoom now).size ↔
      r.config.limit ≤ (r.unexpired now).length := by
    rw [withRoom]
    split
    · rw [size, entries_purge_make hr]
    · next hroom =>
        refine iff_of_false hroom fun hle => hroom (Nat.le_trans hle ?_)
        exact List.length_filter_le _ r.entries
  have hrefusal : ((r.make new).withRoom now).refusal? new.id =
      if r.config.limit ≤ (r.unexpired now).length then
        some (.tooManyRequests r.config.limit)
      else none := by
    simp only [refusal?, hconfig, hfull, hnone, Bool.false_eq_true, if_false]
  rcases register_cases now new r with ⟨fault, hfault, heq⟩ | ⟨hnofault, heq⟩
  · rw [hrefusal] at hfault
    split at hfault
    · next hle =>
        cases hfault
        rw [heq, if_pos hle]
    · cases hfault
  · rw [hrefusal] at hnofault
    split at hnofault
    · cases hnofault
    · next hle => rw [heq, if_neg hle]

end Registry

namespace Engine

/-! ## What stands against a request -/

/-- That there is no room for a request that is admitted at some moment. -/
def noRoom (now : Instant) (e : Engine) : Prop × Fault.Kind :=
  (e.registry.config.limit ≤ (e.registry.unexpired now).length,
    .tooManyRequests)

/-- What stands against a request when its targets have been asked. It is
admitted as soon as the last of them is known to accept. -/
def verdictReasons (bearing : Bearing) (nodes : List Node) (e : Engine) :
    List (Prop × Fault.Kind) :=
  [(∃ n ∈ nodes, ¬ bearing.Accepts
      (Instant.allowance e.now e.config.verificationTimeout) n,
      .verificationFailed),
    e.noRoom (e.now + bearing.latest
      (Instant.allowance e.now e.config.verificationTimeout) nodes)]

/-- What stands against a request that is handed in now, in the order in which
it counts. -/
def reasons (bearing : Bearing) (listing : List (Node × Connectivity))
    (target : Target) (request : Request) (e : Engine) :
    List (Prop × Fault.Kind) :=
  (e.isStopped = true, .stopped) :: (target.reasons listing request ++
    if target.needsRound request then
      stateReasons listing (target.members listing) ++
        e.verdictReasons bearing (target.members listing)
    else [e.noRoom e.now])

/-- How a submission stands that was handed in for some targets. Once it is
decided, the first reason against it is its fault, and if there is none it is
delivered to each target. -/
structure Stands (b e : Engine) (reasons : List (Prop × Fault.Kind))
    (nodes : List Node) (sub : Submission) : Prop where
  present : e.submissions = b.submissions ++ [sub]
  rejected : ∀ fault, sub.phase = .rejected fault →
    Decides reasons (some fault.kind)
  accepted : ∀ handle, sub.phase = .accepted handle → Decides reasons none ∧
    (∃ c, e.registry.collation? handle = some c ∧ c.id = sub.id ∧
      c.expected = nodes) ∧
    e.jobs = b.jobs ++ nodes.map fun node => { batch := b.batches.length, node }

section

variable {b e : Engine} {reasons : List (Prop × Fault.Kind)} {nodes : List Node}

theorem Stands.of_reject {sub : Submission}
    (hsubmissions : e.submissions = b.submissions ++ [sub])
    {fault : Fault} (h : Decides reasons (some fault.kind)) :
    Stands b (e.reject b.submissions.length sub fault) reasons nodes
      { sub with phase := .rejected fault } where
  present := by
    unfold reject setSubmission
    dsimp only [tell]
    rw [hsubmissions, modify_append_length]
  rejected fault' heq := by
    cases heq
    exact h
  accepted := nofun

/-- Nothing but the lack of room is left to stand against a submission that is
about to be admitted. -/
theorem Stands.of_enroll (sub : Submission) (hsound : e.registry.Sound)
    (hrunning : e.isStopped = false)
    (hfree : e.registry.contains sub.id = false)
    (hnodes : IsAscending nodes)
    (hsubmissions : e.submissions = b.submissions ++ [sub])
    (hjobs : e.jobs = b.jobs) (hbatches : e.batches = b.batches)
    (hrest : ∀ decision, Decides [e.noRoom e.now] decision →
      Decides reasons decision) :
    ∃ phase, (∀ r, phase ≠ .verifying r) ∧
      Stands b (e.enroll b.submissions.length sub nodes) reasons nodes
        { sub with phase } := by
  have hresult :=
    Registry.register_result hsound (e.collationOf sub nodes) hfree e.now
  rcases enroll_cases e b.submissions.length sub nodes with
    ⟨fault, registry, metrics, journal, -, -, hdenies, heq⟩ |
    ⟨registry, handle, metrics, journal, hadmits, -, heq⟩
  · refine ⟨.rejected fault, nofun, ?_, fun fault' hfault => ?_, nofun⟩
    · rw [heq, hsubmissions, modify_append_length]
    · cases hfault
      cases hdenies with
      | stopped hstopped =>
          rw [hrunning] at hstopped
          cases hstopped
      | unheld registry fault _ hregister =>
          rw [hregister] at hresult
          split at hresult
          · next hfull =>
              cases hresult
              exact hrest _ (.here hfull)
          · cases hresult
  · obtain ⟨c, hc, hseen⟩ := hadmits.collation
    refine ⟨.accepted handle, nofun, ?_, nofun, fun handle' hhandle => ?_⟩
    · rw [heq, hsubmissions, modify_append_length]
    · cases hhandle
      rw [hadmits.registered] at hresult
      refine ⟨hrest _ (.skip (fun hfull => ?_) rfl), ⟨c, ?_, ?_, ?_⟩, ?_⟩
      · rw [if_pos hfull] at hresult
        cases hresult
      · rw [heq]
        exact hc
      · exact hseen.same.id
      · exact hseen.same.expected.trans (ascending_eq_self hnodes)
      · rw [heq, hjobs, hbatches]

end

/-! ## A request that is handed in -/

/-- The engine that has taken a submission in. -/
def taken (sub : Submission) (e : Engine) : Engine :=
  { e with submissions := e.submissions ++ [sub], isSweeping := true }

section

variable {b e : Engine} {bearing : Bearing}

/-- A request is decided at once, unless its targets are asked. -/
theorem submit_stands (bearing : Bearing) (target : Target) (request : Request)
    (id seed : String) (hordered : IsAscending (b.members.entries.map (·.1)))
    (hsound : b.registry.Sound) (hfresh : b.registry.contains id = false)
    {listing : List (Node × Connectivity)}
    (hperm : listing.Perm b.members.entries) :
    (b.isStopped = false ∧ b.submit target request id seed =
        (b.taken (b.handedIn target request id seed
          (.verifying b.rounds.length))).opened
          (b.handedIn target request id seed
            (.verifying b.rounds.length)).outbound
          (target.members listing) b.config.verificationTimeout
            (some b.submissions.length) ∧
      ∀ decision, Decides (b.verdictReasons bearing (target.members listing))
        decision →
          Decides (b.reasons bearing listing target request) decision) ∨
    (b.submit target request id seed).rounds = b.rounds ∧
      ∃ phase, (∀ r, phase ≠ .verifying r) ∧
        Stands b (b.submit target request id seed)
          (b.reasons bearing listing target request) (target.members listing)
          (b.handedIn target request id seed phase) := by
  unfold submit
  dsimp only
  split
  · next hstopped =>
      exact Or.inr ⟨rfl, .rejected _, nofun, .of_reject rfl (.here hstopped)⟩
  · next hstopped =>
      have hrunning := Bool.eq_false_iff.2 hstopped
      rcases Target.resolve_decides hperm request target with
        ⟨fault, heq, h⟩ | ⟨nodes, heq, h, hmembers⟩
      · rw [heq]
        exact Or.inr ⟨rfl, .rejected _, nofun,
          .of_reject rfl (.skip hstopped h.append_some)⟩
      · rw [heq]
        dsimp only
        rw [ascending_eq_self (isAscending_resolve hordered heq)] at hmembers
        subst hmembers
        -- There are targets, so the decision is left to the reasons that come
        -- after them.
        have hrest : ∀ {decision rest}, Decides rest decision →
            Decides ((b.isStopped = true, .stopped) ::
              (target.reasons listing request ++ rest)) decision :=
          fun hdecides => .skip hstopped (h.append_none hdecides)
        split
        · next hneeds =>
            have hstates := Membership.unconnected?_decides hperm hordered.nodup
              (target.members listing)
            unfold Engine.reasons
            rw [if_pos hneeds]
            split
            · next fault hunconnected =>
                rw [hunconnected] at hstates
                exact Or.inr ⟨rfl, .rejected _, nofun, .of_reject rfl
                  (hrest hstates.append_some)⟩
            · next hconnected =>
                rw [hconnected] at hstates
                refine Or.inl ⟨hrunning, ?_, fun _ h =>
                  hrest (hstates.append_none h)⟩
                unfold opened taken setSubmission
                dsimp only
                rw [modify_append_length]
                rfl
        · next hneeds =>
            right
            refine ⟨(enroll_frame _ _ _ _).2.2, Stands.of_enroll
              (b.handedIn target request id seed (.rejected .stopped))
              hsound hrunning hfresh (isAscending_resolve hordered heq)
              rfl rfl rfl fun decision h => ?_⟩
            unfold Engine.reasons
            rw [if_neg hneeds]
            exact hrest h

/-! ## A request whose targets are asked -/

theorem admitAfter_eq {sub : Submission} {round : Round}
    (hsubmission : round.submission = some b.submissions.length)
    (hsubmissions : e.submissions = b.submissions ++ [sub]) :
    e.admitAfter round = e.enroll b.submissions.length sub round.targets := by
  unfold admitAfter
  rw [hsubmission]
  dsimp only
  rw [hsubmissions, List.getElem?_concat_length]

theorem rejectAfter_eq {sub : Submission} {round : Round}
    (hsubmission : round.submission = some b.submissions.length)
    (hsubmissions : e.submissions = b.submissions ++ [sub]) (fault : Fault) :
    e.rejectAfter round fault = e.reject b.submissions.length sub fault := by
  unfold rejectAfter
  rw [hsubmission]
  dsimp only
  rw [hsubmissions, List.getElem?_concat_length]

theorem Ended.stands (sub : Submission) {nodes : List Node} {r : Nat}
    {reasons : List (Prop × Fault.Kind)} (hsound : b.registry.Sound)
    (hrunning : b.isStopped = false)
    (hfree : b.registry.contains sub.id = false) (hnodes : IsAscending nodes)
    (hrest : ∀ decision, Decides (b.verdictReasons bearing nodes) decision →
      Decides reasons decision)
    (hended : Ended bearing (b.taken sub) r
      ((b.taken sub).roundOf sub.outbound nodes
      b.config.verificationTimeout (some b.submissions.length)) e) :
    ∃ phase, (∀ r, phase ≠ .verifying r) ∧
      Stands b e reasons nodes { sub with phase } := by
  rcases hended with hpassed | ⟨n, reason, hfailed⟩
  · obtain ⟨e₁, ⟨now, calls, rounds, metrics, journal, rfl⟩, hnow, rfl⟩ :=
      hpassed.after
    -- The registry is looked at when the last target is known to accept, and
    -- not before.
    have hmoment : now = b.now + bearing.latest
        (Instant.allowance b.now b.config.verificationTimeout) nodes :=
          hnow.trans hpassed.now
    rw [admitAfter_eq rfl rfl]
    refine Stands.of_enroll sub hsound hrunning hfree hnodes rfl rfl
      rfl fun decision h =>
      hrest decision
        (.skip (fun ⟨n, hn, hfails⟩ => hfails (hpassed.accepts n hn)) ?_)
    rw [← hmoment]
    exact h
  · obtain ⟨e₁, ⟨now, calls, rounds, metrics, journal, rfl⟩, rfl⟩ :=
      hfailed.after
    rw [rejectAfter_eq rfl rfl]
    exact ⟨.rejected _, nofun, .of_reject rfl
      (hrest _ (.here ⟨n, hfailed.first.mem, hfailed.first.fails⟩))⟩

theorem step_eq_none_of_no_round {r : Nat} (hnone : e.rounds[r]? = none)
    {event : Event} (hattends : e.Attends bearing r event) :
    e.step event = none := by
  have hno : ∀ round, round ∉ e.rounds[r]? := fun round hround => by
    rw [hnone] at hround
    cases hround
  cases event with
  | startProbe r' =>
      cases (show r' = r from hattends)
      rw [step, startProbe, hnone]
      rfl
  | advance now | arrive k result | finish k =>
      obtain ⟨round, hround, -⟩ := hattends
      exact absurd hround (hno round)
  | expireRound r' =>
      obtain ⟨-, round, hround, -⟩ := hattends
      exact absurd hround (hno round)
  | submit | startJob | lookUp | look | sweep | shutDown | addNode | setState |
      removeNode =>
      exact hattends.elim

end

/-- A request that is handed in and left to itself, in an engine with any past.
It is decided after a bounded number of events. The first of the reasons against
it decides of which kind its fault is, and if none applies it is accepted and
delivered to its targets, which are distinct and in ascending order. Nothing in
this depends on how the directory is listed, and neither does what the checks
themselves find in it. The targets of a request to the whole cluster are those
who are connected, so that nothing is found when they are to be asked. -/
theorem decided_by_first_reason (config : EngineConfig)
    (entries : List (Node × Connectivity)) (wants : Bool) {before : List Event}
    {b : Engine}
    (hbefore : (start config (.ofEntries entries) wants).run before = some b)
    (bearing : Bearing) (target : Target) (request : Request) (id seed : String)
    (hfresh : b.registry.contains id = false)
    {listing : List (Node × Connectivity)}
    (hperm : listing.Perm b.members.entries) :
    ((target.resolve ⟨listing⟩ request).map ascending).mapError Fault.kind =
      ((target.resolve b.members request).map ascending).mapError Fault.kind ∧
    (∀ nodes, Membership.unconnected? nodes ⟨listing⟩ =
      b.members.unconnected? nodes) ∧
    IsAscending (target.members listing) ∧
    (target = .allConnected →
      (∀ n, n ∈ target.members listing ↔ (n, .connected) ∈ listing) ∧
      b.members.unconnected? (target.members listing) = none) ∧
    ∀ events e,
      Along (Attends bearing b.rounds.length)
        (b.submit target request id seed) events →
      (b.submit target request id seed).run events = some e →
      events.length ≤
        (Instant.allowance b.now b.config.verificationTimeout).nanos +
        3 * (target.members listing).length ∧
      (∃ phase, Stands b e (b.reasons bearing listing target request)
        (target.members listing) (b.handedIn target request id seed phase)) ∧
      ∃ more e' phase, Along (Attends bearing b.rounds.length) e more ∧
        e.run more = some e' ∧ (∀ r, phase ≠ .verifying r) ∧
        Stands b e' (b.reasons bearing listing target request)
          (target.members listing)
            (b.handedIn target request id seed phase) := by
  have hordered := (reached_of_run hbefore).ordered.members
  have hsound := (owned_of_run hbefore).sound
  refine ⟨Target.resolve_any_order hperm request target,
    Membership.unconnected?_any_order hperm hordered.nodup,
    Target.isAscending_members listing target, ?_,
      fun events e halong hrun => ?_⟩
  · rintro rfl
    refine ⟨fun n => Target.mem_members_allConnected,
      unconnected?_eq_none fun n hn => ?_⟩
    rw [Target.mem_members_allConnected, hperm.mem_iff] at hn
    exact (mem_iff_valueAt? hordered.nodup).1 hn
  rcases submit_stands bearing target request id seed hordered hsound
    hfresh hperm with
    ⟨hrunning, heq, hrest⟩ | ⟨hrounds, phase, hdecided, hstands⟩
  · rw [heq] at halong hrun
    have hstands : ∀ {e' : Engine}, Ended bearing _ _ _ e' → ∃ phase,
        (∀ r, phase ≠ .verifying r) ∧
          Stands b e' (b.reasons bearing listing target request)
          (target.members listing) (b.handedIn target request id seed phase) :=
      Ended.stands (b.handedIn target request id seed
        (.verifying b.rounds.length)) (r := b.rounds.length)
          hsound hrunning hfresh
        (Target.isAscending_members listing target) hrest
    obtain ⟨hround, hlength⟩ := opened_run bearing halong hrun
    refine ⟨hlength, ?_⟩
    rcases hround with ⟨unasked, asked, h⟩ | hended
    · obtain ⟨more, e', halong', hrun', hended⟩ := h.can_end opens_roundOf
      obtain ⟨phase, hdecided, hstands'⟩ := hstands hended
      refine ⟨⟨.verifying b.rounds.length, ?_, nofun, nofun⟩, more, e', phase,
        halong', hrun', hdecided, hstands'⟩
      obtain ⟨now, calls, rounds, metrics, journal, rfl⟩ := h.elsewhere
      rfl
    · obtain ⟨phase, hdecided, hstands'⟩ := hstands hended
      exact ⟨⟨phase, hstands'⟩, [], e, phase, along_nil e, rfl, hdecided,
        hstands'⟩
  · have hnone : (b.submit target request id seed).rounds[b.rounds.length]? =
        none := by
      rw [hrounds]
      exact List.getElem?_eq_none (Nat.le_refl _)
    cases run_eq_nil (fun _ h => step_eq_none_of_no_round hnone h) halong hrun
    cases hrun
    exact ⟨Nat.zero_le _, ⟨phase, hstands⟩, [], _, phase, along_nil _, rfl,
      hdecided, hstands⟩

/-- The first request takes the only place there is. The targets of the second,
one of which is named twice, accept after each other, and only then is it found
that there is no room. -/
theorem decided_by_first_reason_no_room :
    let a : Node := ⟨"a", "localhost", 1⟩
    let c : Node := ⟨"c", "localhost", 2⟩
    let entries : List (Node × Connectivity) :=
      [(a, .connected), (c, .connected)]
    let b := (start { registry := { limit := 1 } } (.ofEntries entries)).submit
      (.coordinator a) { method := .post, uri := "/" } "x" "s"
    let request : Request := { method := .put, uri := "/" }
    let bearing : Bearing := fun n =>
      some (if n = a then ⟨6⟩ else ⟨4⟩, .ok { status := 202 })
    let events : List Event := [.startProbe 0, .startProbe 0, .advance 4,
      .arrive 1 (.ok { status := 202 }), .finish 1, .advance 6,
      .arrive 0 (.ok { status := 202 }), .finish 0]
    ∃ e,
      Along (Attends bearing 0) (b.submit (.nodes [c, a, c]) request "y" "s")
        events ∧
      (b.submit (.nodes [c, a, c]) request "y" "s").run events = some e ∧
      e.submissions.map (·.phase) =
        [.accepted 0, .rejected (.tooManyRequests 1)] ∧
      Decides (b.reasons bearing entries.reverse (.nodes [c, a, c]) request)
        (some .tooManyRequests) := by
  intro a c entries b request bearing events
  have hbefore : (start { registry := { limit := 1 } } (.ofEntries entries)).run
      [.submit (.coordinator a) { method := .post, uri := "/" } "x" "s"] =
        some b := rfl
  have hperm : entries.reverse.Perm b.members.entries := by decide +kernel
  have halong : Along (Attends bearing 0)
      (b.submit (.nodes [c, a, c]) request "y" "s") events := by
    decide +kernel
  have hseen : ((b.submit (.nodes [c, a, c]) request "y" "s").run events).map
      (fun e =>
      e.submissions.map (·.phase)) =
        some [.accepted 0, .rejected (.tooManyRequests 1)] := by
    decide +kernel
  obtain ⟨e, hrun, hphases⟩ := Option.map_eq_some_iff.1 hseen
  obtain ⟨-, -, -, -, hdecided⟩ :=
    decided_by_first_reason { registry := { limit := 1 } }
    entries false hbefore bearing (.nodes [c, a, c]) request "y" "s"
      (by decide +kernel) hperm
  obtain ⟨-, ⟨phase, hstands⟩, -⟩ := hdecided events e halong hrun
  refine ⟨e, halong, hrun, hphases, ?_⟩
  rw [hstands.present, List.map_append] at hphases
  obtain ⟨-, hphase⟩ := List.append_inj hphases rfl
  cases hphase
  exact hstands.rejected _ rfl

end Engine

end Fanout
