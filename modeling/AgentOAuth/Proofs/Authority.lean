import AgentOAuth.Proofs.Lineage
import AgentOAuth.Proofs.ReadBack

/-!
# On whose authority

A token is a claim about others: somebody at the root of its lineage whose
authority it carries, and the actors it passed through.  Every one of them has
proved to the server, earlier in the same run, that it is a registered and
active client; and every scope that is left was allowed to the client at the
root when it asked, and to the registration behind each actor token when that
actor took over (`authority_traced`).

The subject of a derived token is that of its actor token, so the line of actor
tokens ends in a root of the same name.  That is where its owner logged in.
-/

namespace AgentOAuth

open Provenance Transition

namespace Server

variable {server : Server} {w : World} {past : List (World × Event)} {d e : Derivation Signed}
  {a : Signed}

/-! ## The trees of one run -/

/-- The run has issued the root. -/
def RootIn (server : Server) (past : List (World × Event)) (a : Signed) : Prop :=
  ∃ v moment request x, (v, Event.request moment request) ∈ past ∧
    server.RootIssue v.state moment request x a

/-- The run has issued the derived token. -/
def HopIn (server : Server) (past : List (World × Event)) (subject actor : Derivation Signed)
    (a : Signed) : Prop :=
  ∃ v moment request x y, (v, Event.exchange moment request subject actor) ∈ past ∧
    subject ∈ v.issued ∧ actor ∈ v.issued ∧
      server.HopIssue v.state moment request subject.value actor.value x y a

theorem RootIn.mono {longer : List (World × Event)} (h : server.RootIn past a)
    (hpast : past ⊆ longer) : server.RootIn longer a := by
  obtain ⟨v, moment, request, x, hmem, hissue⟩ := h
  exact ⟨v, moment, request, x, hpast hmem, hissue⟩

theorem HopIn.mono {longer : List (World × Event)} {subject actor : Derivation Signed}
    (h : server.HopIn past subject actor a) (hpast : past ⊆ longer) :
    server.HopIn longer subject actor a := by
  obtain ⟨v, moment, request, x, y, hmem, hrest⟩ := h
  exact ⟨v, moment, request, x, y, hpast hmem, hrest⟩

/-- **Every tree of a run is made of issues of this run.** -/
theorem issued_in_run (hrun : server.system.Run past w) :
    ∀ d ∈ w.issued, d.Holds (server.RootIn past) (server.HopIn past) := by
  induction hrun with
  | init hinit =>
      intro d hd
      rw [hinit.1] at hd
      cases hd
  | @step past v w event hrun hstep ih =>
      have hpast : past ⊆ (v, event) :: past := List.subset_cons_self _ _
      have hold : ∀ d ∈ v.issued,
          d.Holds (server.RootIn ((v, event) :: past)) (server.HopIn ((v, event) :: past)) :=
        fun d hd => (ih d hd).mono (fun _ h => h.mono hpast) fun _ _ _ h => h.mono hpast
      intro d hd
      rcases step_cases (issued_genuine hrun.reachable) hstep with ⟨hissued, _⟩ |
        ⟨moment, request, x, a, rfl, hissue, rfl⟩ |
        ⟨moment, request, subject, actor, x, y, a, rfl, hsubject, hactor, hissue, rfl⟩
      · exact hold d (hissued ▸ hd)
      · -- the step that has issued it is the last of the run
        rcases List.mem_cons.mp hd with rfl | hd
        · exact .root ⟨v, moment, request, x, List.mem_cons_self, hissue⟩
        · exact hold d hd
      · rcases List.mem_cons.mp hd with rfl | hd
        · exact .derived (hold subject hsubject) (hold actor hactor)
            ⟨v, moment, request, x, y, List.mem_cons_self, hsubject, hactor, hissue⟩
        · exact hold d hd

/-- What holds for the hops of any run holds for those of this one. -/
theorem hopIssued_of_in (hrun : server.system.Run past w) {subject actor : Derivation Signed}
    (h : server.HopIn past subject actor a) :
    server.HopIssued (fun _ _ => True) subject actor a := by
  obtain ⟨v, moment, request, x, y, hmem, hsubject, hactor, hissue⟩ := h
  exact ⟨v, moment, request, x, y, hrun.reachable_of_mem hmem, hsubject, hactor, trivial, hissue⟩

/-- With a token, everything it was made of has been issued. -/
theorem issued_of_within (hw : server.system.Reachable w) (hd : d ∈ w.issued)
    (hwithin : Derivation.Within e d) : e ∈ w.issued := by
  refine hw.invariant (P := fun w => ∀ d ∈ w.issued, ∀ e, Derivation.Within e d → e ∈ w.issued)
    ?_ ?_ d hd e hwithin
  · rintro w ⟨hissued, _⟩ d hd
    rw [hissued] at hd
    cases hd
  · intro w event w' hw ih hstep d hd e hwithin
    rcases step_cases (issued_genuine hw) hstep with ⟨hissued, _⟩ | ⟨_, _, x, a, _, _, rfl⟩ |
      ⟨_, _, subject, actor, x, y, a, _, hsubject, hactor, _, rfl⟩
    · rw [hissued] at hd ⊢
      exact ih d hd e hwithin
    · rcases List.mem_cons.mp hd with rfl | hd
      · cases hwithin with
        | refl => exact List.mem_cons_self
      · exact List.mem_cons_of_mem _ (ih d hd e hwithin)
    · rcases List.mem_cons.mp hd with rfl | hd
      · cases hwithin with
        | refl => exact List.mem_cons_self
        | parent _ _ hwithin => exact List.mem_cons_of_mem _ (ih subject hsubject e hwithin)
        | via _ _ hwithin => exact List.mem_cons_of_mem _ (ih actor hactor e hwithin)
      · exact List.mem_cons_of_mem _ (ih d hd e hwithin)

/-! ## Who is named -/

/-- A hop names the owner of the actor token. -/
theorem subject_of_hop {subject actor : Derivation Signed} (h : server.HopIn past subject actor a) :
    a.subject = actor.value.subject := by
  obtain ⟨_, _, _, x, y, _, _, _, hissue⟩ := h
  rw [Signed.subject_eq hissue.sub, Signed.subject_eq hissue.actor_sub]

/-- In the run an active client of that name logged in and was given a root
token. -/
def LoggedIn (server : Server) (past : List (World × Event)) (w : World) (name : String) : Prop :=
  ∃ v moment request x a, (v, Event.request moment request) ∈ past ∧
    server.RootIssue v.state moment request x a ∧ .root a ∈ w.issued ∧
      x.login.caller ∈ v.state.clients ∧ x.login.caller.status = .active ∧
        x.login.caller.subject = name

theorem RootIssue.active {s : ServerState} {moment : Moment} {request : Request} {x : Success}
    (h : server.RootIssue s moment request x a) : x.login.caller.status = .active := by
  have husable := h.succeeds.prepared.usable
  rw [h.result] at husable
  exact husable

/-- The owner of an issued token has logged in. -/
theorem loggedIn_of_issued (hrun : server.system.Run past w) (hd : d ∈ w.issued) :
    server.LoggedIn past w d.value.subject := by
  have hholds := issued_in_run hrun d hd
  have hroot : .root d.origin ∈ w.issued :=
    issued_of_within hrun.reachable hd (Derivation.within_origin d)
  obtain ⟨v, moment, request, x, hmem, hissue⟩ :=
    ((Derivation.within_origin d).holds hholds).of_root
  refine ⟨v, moment, request, x, d.origin, hmem, hissue, hroot, hissue.succeeds.login.caller_mem,
    hissue.active, ?_⟩
  calc x.login.caller.subject = d.origin.subject := (Signed.subject_eq hissue.sub).symm
    _ = d.value.subject := (hholds.origin_eq Signed.subject fun _ _ _ => subject_of_hop).symm

/-! ## What was allowed -/

/-- The client at the root may hold the scope. -/
def RootMay (server : Server) (past : List (World × Event)) (scope : String) (a : Signed) : Prop :=
  ∃ v moment request x, (v, Event.request moment request) ∈ past ∧
    server.RootIssue v.state moment request x a ∧ x.login.caller ∈ v.state.clients ∧
      scope ∈ x.login.caller.allowedScopes

/-- The registration that the actor token names may hold the scope. -/
def HopMay (server : Server) (past : List (World × Event)) (scope : String)
    (subject actor : Derivation Signed) (a : Signed) : Prop :=
  ∃ v moment request x y, (v, Event.exchange moment request subject actor) ∈ past ∧
    server.HopIssue v.state moment request subject.value actor.value x y a ∧
      y.actorClient ∈ v.state.clients ∧ scope ∈ y.actorClient.allowedScopes

theorem rootMay_of_in {scope : String} (h : server.RootIn past a) (hscope : scope ∈ a.scopes) :
    server.RootMay past scope a := by
  obtain ⟨v, moment, request, x, hmem, hissue⟩ := h
  rw [Signed.scopes_eq hissue.parse_scope, List.mem_toFinset] at hscope
  exact ⟨v, moment, request, x, hmem, hissue, hissue.succeeds.login.caller_mem,
    hissue.scope_allowed hscope⟩

theorem hopMay_of_in {scope : String} {subject actor : Derivation Signed}
    (h : server.HopIn past subject actor a) (hscope : scope ∈ a.scopes) :
    server.HopMay past scope subject actor a := by
  obtain ⟨v, moment, request, x, y, hmem, _, _, hissue⟩ := h
  rw [Signed.scopes_eq hissue.parse_scope, List.mem_toFinset] at hscope
  exact ⟨v, moment, request, x, y, hmem, hissue,
    TokenExchangeGrant.mem_of_actorClient hissue.admitted.actorClient,
    (hissue.mem_scopes.mp hscope).2.2⟩

/-- A scope that is left was there before every hop. -/
theorem scope_of_ancestor (hrun : server.system.Run past w) (hd : d ∈ w.issued)
    (hanc : Derivation.Ancestor e d) {scope : String} (hscope : scope ∈ d.value.scopes) :
    scope ∈ e.value.scopes := by
  have hholds := issued_in_run hrun d hd
  exact hholds.ancestor_le Signed.scopes
    (fun _ _ _ h => scopes_subset_of_hop (hopIssued_of_in hrun h)) hanc hscope

/-- Everybody a token names has logged in. -/
theorem loggedIn_of_chain (hrun : server.system.Run past w) (hd : d ∈ w.issued)
    {identities : List String} (hchain : chain d.value.claims = .ok identities) :
    ∀ name ∈ identities, server.LoggedIn past w name := by
  have hhistory := history_of_holds (issued_holds_of_reachable hrun.reachable d hd)
  obtain rfl := Except.ok.inj (hhistory.chain.symm.trans hchain)
  intro name hname
  rcases List.mem_append.mp hname with hname | hname
  · obtain ⟨actor, hactor, rfl⟩ := List.mem_map.mp hname
    obtain ⟨v, hwithin, rfl⟩ := Derivation.exists_via hactor
    exact loggedIn_of_issued hrun (issued_of_within hrun.reachable hd hwithin)
  · obtain rfl := List.mem_singleton.mp hname
    exact loggedIn_of_issued (d := .root d.source) hrun
      (issued_of_within hrun.reachable hd (Derivation.ancestor_source d).within)

/-- A scope a token holds was allowed at its root and at every hop. -/
theorem may_of_scope (hrun : server.system.Run past w) (hd : d ∈ w.issued) {scope : String}
    (hscope : scope ∈ d.value.scopes) :
    server.RootMay past scope d.source ∧
      ∀ b subject actor, Derivation.Ancestor (.derived b subject actor) d →
        server.HopMay past scope subject actor b := by
  have hholds := issued_in_run hrun d hd
  have hall : ∀ e, Derivation.Ancestor e d → scope ∈ e.value.scopes :=
    fun e hanc => scope_of_ancestor hrun hd hanc hscope
  constructor
  · have hroot := ((Derivation.ancestor_source d).holds hholds).of_root
    exact rootMay_of_in hroot (hall _ (Derivation.ancestor_source d))
  · intro b subject actor hanc
    cases hanc.holds hholds with
    | derived _ _ hhop => exact hopMay_of_in hhop (hall _ hanc)

/-- **Authority can be traced.**  Everybody a token of a run names has logged in
during the run as an active client, and every scope it holds was allowed to the
client at its root and to the registration behind every actor token along its
lineage, when each was used. -/
theorem authority_traced (hrun : server.system.Run past w) (hd : d ∈ w.issued) :
    (∃ identities, chain d.value.claims = .ok identities ∧
      ∀ name ∈ identities, server.LoggedIn past w name) ∧
    ∀ scope ∈ d.value.scopes, server.RootMay past scope d.source ∧
      ∀ b subject actor, Derivation.Ancestor (.derived b subject actor) d →
        server.HopMay past scope subject actor b := by
  have hhistory := history_of_holds (issued_holds_of_reachable hrun.reachable d hd)
  refine ⟨⟨_, hhistory.chain, loggedIn_of_chain hrun hd hhistory.chain⟩, fun scope hscope => ?_⟩
  exact may_of_scope hrun hd hscope

theorem authority_traced_treeRA :
    ∃ past, Example.server.system.Run past (Example.after Example.events) ∧
      Example.server.LoggedIn past (Example.after Example.events) "agent" ∧
      Example.server.LoggedIn past (Example.after Example.events) "root" ∧
      Example.server.RootMay past "x" (Example.signed Example.rootR) ∧
      Example.server.HopMay past "x" Example.treeR Example.treeAA
        (Example.signed Example.hopR) := by
  obtain ⟨past, hrun⟩ := (Example.after_reachable Example.events).exists_run
  have h := authority_traced hrun (d := Example.treeRA) (by simp [Example.issued_after])
  obtain ⟨identities, hchain, hloggedIn⟩ := h.1
  have hidentities : chain Example.treeRA.value.claims = .ok ["agent", "root"] := by
    decide +kernel
  obtain rfl := Except.ok.inj (hidentities.symm.trans hchain)
  obtain ⟨hroot, hhops⟩ := h.2 "x" (by decide +kernel)
  exact ⟨past, hrun, hloggedIn _ (by simp), hloggedIn _ (by simp), hroot,
    hhops _ _ _ (.refl _)⟩

end Server

end AgentOAuth
