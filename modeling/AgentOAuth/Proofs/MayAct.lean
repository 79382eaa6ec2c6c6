import AgentOAuth.Proofs.Lineage

/-!
# What `may_act` binds

A subject token may name, in its `may_act` claim, the actors that may act on
it.  The claim binds the exchange of that very token.  What the exchange issues
carries no `may_act`, whatever the subject token said, so the next exchange is
free to name anybody (`may_act_binds_first_hop`).

No grant issues a token with the claim; such tokens come from elsewhere, under
the server's key.  `presenting` therefore starts from any genuine tokens.
-/

namespace AgentOAuth

open Effect Provenance Transition

/-! ## The actors a claim names -/

/-- The actor that a `may_act` claim names. -/
def namedActor : Value → Option String
  | .dict entry =>
      match Dict.get entry "sub" with
      | .str actor => some actor
      | _ => none
  | _ => none

/-- The actors that a `may_act` claim names. -/
def permittedActors : Value → List String
  | .dict entry => (namedActor (.dict entry)).toList
  | .list entries => entries.filterMap namedActor
  | _ => []

theorem namesActor_iff {actor : String} {v : Value} :
    namesActor actor v = true ↔ namedActor v = some actor := by
  cases v with
  | dict entry =>
      simp only [namesActor, namedActor, decide_eq_true_eq]
      cases Dict.get entry "sub" <;> simp
  | _ => simp [namesActor, namedActor]

/-- A claim that is there permits the actors it names and nobody else. -/
theorem mayActPermits_iff {claims : Dict} {actor : String}
    (hsome : Dict.get claims MAY_ACT_CLAIM ≠ .null) :
    mayActPermits claims actor = .ok true ↔
      actor ∈ permittedActors (Dict.get claims MAY_ACT_CLAIM) := by
  unfold mayActPermits
  cases hclaim : Dict.get claims MAY_ACT_CLAIM with
  | null => exact absurd hclaim hsome
  | dict entry => simp [permittedActors, namesActor_iff]
  | list entries => simp [permittedActors, namesActor_iff]
  | _ => simp [permittedActors]

namespace Server

variable {server : Server} {w : World} {s : ServerState} {moment : Moment} {request : Request}
  {x : Success} {y : TokenExchangeGrant.Exchange} {a subject actor : Signed}

/-- The server, started among any genuine tokens. -/
def presenting (server : Server) : System World Event where
  init w := ∀ d ∈ w.issued, ∃ a, d = .root a ∧ server.Genuine a
  step := server.step

/-! ## One exchange -/

theorem HopIssue.actor_subject (h : server.HopIssue s moment request subject actor x y a) :
    actor.subject = y.actorSubject :=
  Signed.subject_eq h.actor_sub

/-- The claim of the subject token permits the actor. -/
theorem HopIssue.permits (h : server.HopIssue s moment request subject actor x y a) :
    mayActPermits subject.claims actor.subject = .ok true := by
  rw [h.actor_subject, ← h.subjectClaims]
  exact h.admitted.mayAct

/-- The new token carries no such claim. -/
theorem HopIssue.no_mayAct (h : server.HopIssue s moment request subject actor x y a) :
    Dict.get a.claims MAY_ACT_CLAIM = .null :=
  h.signedFrom.mayAct

/-- A chain that can be read is the actor in front of the subject's. -/
theorem HopIssue.chain_cons (h : server.HopIssue s moment request subject actor x y a)
    {identities : List String} (hchain : chain a.claims = .ok identities) :
    ∃ tail, chain subject.claims = .ok tail ∧ identities = actor.subject :: tail := by
  have hdeclared := h.admitted.declared
  rw [h.subjectClaims] at hdeclared
  obtain ⟨_, _, tail, htail, _⟩ := declaredDepth_eq_ok.mp hdeclared
  have hne : y.actorSubject ≠ "" := by
    obtain ⟨name, _, hname, hne, _⟩ := chain_eq_ok.mp hchain
    obtain rfl : name = y.actorSubject := by simpa [hname] using h.sub
    exact hne
  have hcons := h.chain_eq htail hne
  rw [hchain, Except.ok.injEq] at hcons
  exact ⟨tail, htail, h.actor_subject ▸ hcons⟩

/-! ## Every exchange of a run -/

/-- The token was derived by an exchange, in some state. -/
def Exchanged (server : Server) (subject actor : Derivation Signed) (a : Signed) : Prop :=
  ∃ s moment request x y, server.HopIssue s moment request subject.value actor.value x y a

theorem presenting_genuine (hw : server.presenting.Reachable w) :
    ∀ d ∈ w.issued, server.Genuine d.value := by
  refine hw.invariant (P := fun w => ∀ d ∈ w.issued, server.Genuine d.value) ?_ ?_
  · intro w hinit d hd
    obtain ⟨a, rfl, ha⟩ := hinit d hd
    exact ha
  · exact fun w e w' _ ih hstep => genuine_step ih hstep

/-- Every derived token of a run comes from an exchange. -/
theorem presenting_holds (hw : server.presenting.Reachable w) :
    ∀ d ∈ w.issued, d.Holds (fun _ => True) server.Exchanged := by
  refine hw.invariant (P := fun w => ∀ d ∈ w.issued, d.Holds (fun _ => True) server.Exchanged) ?_ ?_
  · intro w hinit d hd
    obtain ⟨a, rfl, _⟩ := hinit d hd
    exact .root trivial
  · intro w e w' hw ih hstep d hd
    rcases step_cases (presenting_genuine hw) hstep with ⟨hissued, _⟩ | ⟨_, _, x, a, _, _, rfl⟩ |
      ⟨moment, request, subject, actor, x, y, a, _, hsubject, hactor, hissue, rfl⟩
    · exact ih d (hissued ▸ hd)
    · rcases List.mem_cons.mp hd with rfl | hd
      · exact .root trivial
      · exact ih d hd
    · rcases List.mem_cons.mp hd with rfl | hd
      · exact .derived (ih subject hsubject) (ih actor hactor)
          ⟨w.state, moment, request, x, y, hissue⟩
      · exact ih d hd

theorem chain_of_exchanges {d : Derivation Signed}
    (h : d.Holds (fun _ => True) server.Exchanged) {identities : List String}
    (hchain : chain d.value.claims = .ok identities) :
    ∃ tail, chain d.source.claims = .ok tail ∧
      identities = d.vias.map Signed.subject ++ tail := by
  induction h generalizing identities with
  | root _ => exact ⟨identities, hchain, rfl⟩
  | derived _ _ ha ihp _ =>
      obtain ⟨_, _, _, x, y, hissue⟩ := ha
      obtain ⟨rest, hrest, rfl⟩ := hissue.chain_cons hchain
      obtain ⟨tail, htail, rfl⟩ := ihp hrest
      exact ⟨tail, htail, rfl⟩

/-- The first actor of a lineage is one that its source permits. -/
theorem first_permitted {d : Derivation Signed} (h : d.Holds (fun _ => True) server.Exchanged)
    {first : Signed} (hfirst : d.vias.getLast? = some first) :
    mayActPermits d.source.claims first.subject = .ok true := by
  induction h with
  | root _ => simp [Derivation.vias] at hfirst
  | @derived a p v hp _ ha ihp _ =>
      obtain ⟨_, _, _, x, y, hissue⟩ := ha
      cases hp with
      | root _ =>
          -- the exchange of the source itself
          obtain rfl : v.value = first := by simpa [Derivation.vias] using hfirst
          exact hissue.permits
      | derived _ _ _ =>
          refine ihp ?_
          rw [Derivation.vias, Derivation.vias, List.getLast?_cons_cons] at hfirst
          exact hfirst

end Server

/-! ## A token that only the helper may act on -/

namespace Example.Deep

def treeS0 : Derivation Signed := .root (signed s0)
def treeD0 : Derivation Signed := .root (signed d0)
def treeS1 : Derivation Signed := .derived (signed s1) treeS0 treeB0
def treeS2 : Derivation Signed := .derived (signed s2) treeS1 treeD0

/-- `s0` is among the tokens, and those of the helper and of the outsider. -/
def presented : World where
  state := { clients := registry }
  issued := [treeS0, treeB0, treeD0]

/-- The helper acts on `s0`, and the outsider on the token that gave. -/
def handOver : List Event := [
  .exchange (momentOf 1010 "s1") (exchange "c" "s0" "b0") treeS0 treeB0,
  .exchange (momentOf 1010 "s2") (exchange "c" "s1" "d0") treeS1 treeD0]

theorem answered_handOver :
    (server.presenting.replay presented handOver).map World.issued =
      some [treeS2, treeS1, treeS0, treeB0, treeD0] := by
  decide +kernel

theorem genuine_of_mem {entry : BookEntry} (h : entry ∈ book) : server.Genuine (signed entry) := by
  have hlookup : book.lookup entry.token = .ok entry := TokenBook.lookup_eq_ok.mpr ⟨h, rfl⟩
  exact congrArg (Except.map BookEntry.payload) hlookup

theorem presented_reachable : server.presenting.Reachable presented := by
  refine .init fun d hd => ?_
  simp only [presented, List.mem_cons, List.not_mem_nil, or_false] at hd
  rcases hd with rfl | rfl | rfl
  · exact ⟨_, rfl, genuine_of_mem (by simp [book, Table.mem_iff])⟩
  · exact ⟨_, rfl, genuine_of_mem (by simp [book, Table.mem_iff])⟩
  · exact ⟨_, rfl, genuine_of_mem (by simp [book, Table.mem_iff])⟩

end Example.Deep

namespace Server

variable {server : Server} {w : World}

/-- **What `may_act` binds.**  In every run among genuine tokens, each exchange
in the lineage of a token has an actor that the subject token of that exchange
permits, and issues a token without the claim.  So the first actor added to the
chain of a token is one that its source names; the chain is the actors, newest
first, and then the chain of the source. -/
theorem may_act_binds_first_hop (hw : server.presenting.Reachable w) {d : Derivation Signed}
    (hd : d ∈ w.issued) :
    (∀ a p v, (Derivation.derived a p v).Ancestor d →
      mayActPermits p.value.claims v.value.subject = .ok true ∧
        Dict.get a.claims MAY_ACT_CLAIM = .null) ∧
    (Dict.get d.source.claims MAY_ACT_CLAIM ≠ .null → ∀ first, d.vias.getLast? = some first →
      first.subject ∈ permittedActors (Dict.get d.source.claims MAY_ACT_CLAIM)) ∧
    ∀ identities, chain d.value.claims = .ok identities →
      ∃ tail, chain d.source.claims = .ok tail ∧
        identities = d.vias.map Signed.subject ++ tail := by
  have hholds := presenting_holds hw d hd
  refine ⟨?_, ?_, fun identities hchain => chain_of_exchanges hholds hchain⟩
  · intro a p v hancestor
    cases hancestor.holds hholds with
    | derived _ _ ha =>
        obtain ⟨_, _, _, x, y, hissue⟩ := ha
        exact ⟨hissue.permits, hissue.no_mayAct⟩
  · intro hsome first hfirst
    exact (mayActPermits_iff hsome).mp (first_permitted hholds hfirst)

theorem may_act_binds_first_hop_s2 :
    ∃ w, Example.Deep.server.presenting.replay Example.Deep.presented Example.Deep.handOver = some w ∧
      Example.Deep.treeS2 ∈ w.issued ∧
      (Example.signed Example.Deep.b0).subject ∈ permittedActors
        (Dict.get Example.Deep.treeS2.source.claims MAY_ACT_CLAIM) := by
  obtain ⟨w, hreplay, hissued⟩ := Option.map_eq_some_iff.mp Example.Deep.answered_handOver
  have hmem : Example.Deep.treeS2 ∈ w.issued := by simp [hissued]
  have hbound := may_act_binds_first_hop (Example.Deep.presented_reachable.replay hreplay) hmem
  exact ⟨w, hreplay, hmem, hbound.2.1 (by decide +kernel) _ (by decide +kernel)⟩

/-- The outsider is added to the chain above `s0`, which names the helper only. -/
theorem may_act_not_inherited :
    ¬ ∀ (server : Server) (w : World), server.presenting.Reachable w → ∀ d ∈ w.issued,
      Dict.get d.source.claims MAY_ACT_CLAIM ≠ .null → ∀ actor ∈ d.vias,
        actor.subject ∈ permittedActors (Dict.get d.source.claims MAY_ACT_CLAIM) := by
  intro hclaim
  obtain ⟨w, hreplay, hissued⟩ := Option.map_eq_some_iff.mp Example.Deep.answered_handOver
  have hpermitted := hclaim _ w (Example.Deep.presented_reachable.replay hreplay)
    Example.Deep.treeS2 (by simp [hissued]) (by decide +kernel)
    (Example.signed Example.Deep.d0) (by decide +kernel)
  exact absurd hpermitted (by decide +kernel)

end Server

end AgentOAuth
