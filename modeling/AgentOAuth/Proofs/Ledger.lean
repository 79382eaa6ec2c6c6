import AgentOAuth.Proofs.Lineage

/-!
# Ledger, token and response

The row of the ledger is built from the result of the grant, the token from a
dictionary of claims, and the response from the token.  `Recorded` says that a
row and the claims of a token agree; `recorded_of_succeeds` that they do for
every token that is handed out, and `ledger_agrees` that every token of a run
has its row.
-/

namespace AgentOAuth

open Provenance

/-- The row says what the claims say. -/
structure Recorded (claims : Dict) (row : IssuanceRecord) : Prop where
  jti : Dict.get claims "jti" = .str row.jti
  clientId : Dict.get claims "client_id" = .str row.clientId
  subject : Dict.get claims "sub" = .str row.subject
  audience : Dict.get claims "aud" = .str row.audience
  scope : Dict.get claims "scope" = if row.scope = "" then .null else .str row.scope
  taskId : Dict.get claims TASK_CLAIM = (row.taskId.map Value.str).getD .null
  delegationDepth : Dict.get claims DEPTH_CLAIM = .int row.delegationDepth
  issuedAt : Dict.get claims "iat" = .int ⌊row.issuedAt⌋
  expiresAt : Dict.get claims "exp" = .int ⌊row.expiresAt⌋
  rootSubject : root claims = .ok row.rootSubject

namespace Server

variable {server : Server} {w : World} {s : ServerState} {moment : Moment} {request : Request}
  {x : Success} {y : TokenExchangeGrant.Exchange} {a subject actor : Signed}

/-! ## One token -/

/-- Only the root of the chain has to be looked at: everything else of the row
and of the claims comes from the same result. -/
theorem Succeeds.recorded_row (h : server.Succeeds moment request s x)
    (hroot : root x.payload = .ok (orDefault x.result.actRoot x.result.subject)) :
    Recorded x.payload x.issuance.row := by
  have hsigned := h.signedFrom
  rw [h.prepared.row_eq h.extraClaims_eq]
  exact ⟨hsigned.jti, hsigned.clientId, hsigned.sub, hsigned.aud, hsigned.scope, hsigned.task,
    hsigned.depth, hsigned.iat, hsigned.exp, hroot⟩

/-- The response names the scope of the token. -/
theorem Succeeds.reply_scope (h : server.Succeeds moment request s x) :
    Dict.get x.payload "scope" = (x.reply.scope.map Value.str).getD .null := by
  rw [h.signedFrom.scope]
  by_cases hscope : x.issuance.scope = "" <;>
    simp [Success.reply, respond, IssuancePipeline.Issuance.token, hscope]

theorem RootIssue.recorded (h : server.RootIssue s moment request x a) :
    Recorded a.claims x.issuance.row := by
  have hroot : root a.claims = .ok x.login.caller.subject := root_eq_ok.mpr ⟨[], h.chain_eq⟩
  rw [h.value, Success.claims_token] at hroot ⊢
  refine h.succeeds.recorded_row ?_
  rw [h.result]
  exact hroot

theorem HopIssue.recorded (h : server.HopIssue s moment request subject actor x y a)
    (hne : y.actorSubject ≠ "") : Recorded a.claims x.issuance.row := by
  have hsubject := h.admitted.actRoot
  rw [h.subjectClaims, root_eq_ok] at hsubject
  obtain ⟨identities, hchain⟩ := hsubject
  -- a root is never empty, so the row does not fall back to the subject
  have hroot_ne : y.actRoot ≠ "" := chain_forall_ne hchain _ (by simp)
  have hroot : root a.claims = .ok y.actRoot :=
    root_eq_ok.mpr ⟨y.actorSubject :: identities, h.chain_eq hchain hne⟩
  rw [h.value, Success.claims_token] at hroot ⊢
  refine h.succeeds.recorded_row ?_
  rw [h.result]
  simpa [TokenExchangeGrant.Exchange.result, orDefault, hroot_ne] using hroot

/-- The actor of an exchange with an issued actor token has a name. -/
theorem HopIssue.actorSubject_ne (hw : server.system.Reachable w) {v : Derivation Signed}
    (hv : v ∈ w.issued) (h : server.HopIssue s moment request subject v.value x y a) :
    y.actorSubject ≠ "" := by
  have hhistory := history_of_holds (issued_holds_of_reachable hw v hv)
  rw [← Signed.subject_eq h.actor_sub]
  exact hhistory.subject_ne

/-- **A token that is handed out agrees with its row.** -/
theorem recorded_of_succeeds (hw : server.system.Reachable w)
    (hunforged : server.Unforged w request) (h : server.Succeeds moment request w.state x) :
    Recorded x.payload x.issuance.row := by
  cases hexchange : server.isExchange request with
  | false => exact (h.rootIssue hexchange).recorded
  | true =>
      obtain ⟨subject, hsubject, actor, hactor, hpresents⟩ := hunforged.presents h hexchange
      obtain ⟨y, hissue⟩ := h.hopIssue hexchange hpresents (issued_genuine hw _ hsubject)
        (issued_genuine hw _ hactor)
      exact hissue.recorded (hissue.actorSubject_ne hw hactor)

/-! ## Every token of a run -/

/-- **Every token that has left the server has its row.** -/
theorem issued_recorded (hw : server.system.Reachable w) :
    ∀ d ∈ w.issued, ∃ row ∈ w.state.issuedCredentials, Recorded d.value.claims row := by
  refine hw.invariant
    (P := fun w => ∀ d ∈ w.issued, ∃ row ∈ w.state.issuedCredentials, Recorded d.value.claims row)
    ?_ ?_
  · rintro w ⟨hissued, _⟩ d hd
    simp [hissued] at hd
  · intro w e w' hw ih hstep d hd
    -- a successful request writes its own row in front of the others
    have hnew : ∀ {moment request x} (d : Derivation Signed),
        server.Succeeds moment request w.state x → Recorded d.value.claims x.issuance.row →
          ∀ d' ∈ d :: w.issued, ∃ row ∈ x.state.issuedCredentials, Recorded d'.value.claims row := by
      intro moment request x d hx hrecorded d' hd'
      simp only [Table.mem_iff, hx.rows_eq]
      rcases List.mem_cons.mp hd' with rfl | hd'
      · exact ⟨_, List.mem_cons_self, hrecorded⟩
      · obtain ⟨row, hrow, hold⟩ := ih d' hd'
        exact ⟨row, List.mem_cons_of_mem _ hrow, hold⟩
    rcases step_cases (issued_genuine hw) hstep with ⟨hissued, hledger⟩ |
      ⟨_, _, x, a, _, hissue, rfl⟩ | ⟨_, _, subject, actor, x, y, a, _, _, hactor, hissue, rfl⟩
    · rw [hledger]
      exact ih d (hissued ▸ hd)
    · exact hnew (.root a) hissue.succeeds hissue.recorded d hd
    · exact hnew (.derived a subject actor) hissue.succeeds
        (hissue.recorded (hissue.actorSubject_ne hw hactor)) d hd

/-- **Ledger, token and response agree.**  In every state of a run each token
that has left the server has its row.  A request is answered with a token, and
then the ledger has gained exactly the row of that token, or it is refused, and
then the ledger is as it was. -/
theorem ledger_agrees (hw : server.system.Reachable w) :
    (∀ d ∈ w.issued, ∃ row ∈ w.state.issuedCredentials, Recorded d.value.claims row) ∧
    ∀ moment request, server.Unforged w request →
      (∃ response t claims row,
        (server.getOauthToken moment request).run w.state = .ok response t ∧
        server.jwt.decodeUnverified response.accessToken = .ok claims ∧
        t.issuedCredentials.rows = row :: w.state.issuedCredentials.rows ∧
        Recorded claims row ∧
        Dict.get claims "scope" = (response.scope.map Value.str).getD .null) ∨
      ∃ e t, (server.getOauthToken moment request).run w.state = .error e t ∧
        t.issuedCredentials = w.state.issuedCredentials := by
  refine ⟨issued_recorded hw, fun moment request hunforged => ?_⟩
  cases hrun : (server.getOauthToken moment request).run w.state with
  | ok response t =>
      obtain ⟨x, hx, rfl, rfl⟩ := getOauthToken_eq_ok_iff_succeeds.mp hrun
      exact .inl ⟨_, _, _, _, rfl, hx.genuine, hx.rows_eq, recorded_of_succeeds hw hunforged hx,
        hx.reply_scope⟩
  | error e t => exact .inr ⟨e, t, rfl, getOauthToken_error hrun⟩

theorem ledger_agrees_ask :
    (∃ row ∈ (Example.after Example.events).state.issuedCredentials,
      Recorded Example.treeRA.value.claims row) ∧
    ∃ response t claims row,
      (Example.server.getOauthToken (Example.momentAt 1010 "A") (Example.ask "a" "y")).run
        (Example.after (Example.events.take 1)).state = .ok response t ∧
      Example.server.jwt.decodeUnverified response.accessToken = .ok claims ∧
      t.issuedCredentials.rows =
        row :: (Example.after (Example.events.take 1)).state.issuedCredentials.rows ∧
      Recorded claims row ∧
      Dict.get claims "scope" = (response.scope.map Value.str).getD .null := by
  refine ⟨(ledger_agrees (Example.after_reachable Example.events)).1 _
    (by simp [Example.issued_after]), ?_⟩
  have hread : (readTokenForm Example.server.interpreter (Example.ask "a" "y")).toOption.map
      (fun form => (form.get "subject_token", form.get "actor_token")) = some (none, none) := by
    decide +kernel
  have hunforged : Example.server.Unforged (Example.after (Example.events.take 1))
      (Example.ask "a" "y") := by
    intro form hform name hname token htoken
    simp only [hform, Except.toOption, Option.map_some, Option.some.injEq, Prod.mk.injEq] at hread
    simp only [List.mem_cons, List.not_mem_nil, or_false] at hname
    rcases hname with rfl | rfl <;> simp [hread] at htoken
  have hanswered : (Effect.value? ((Example.server.getOauthToken (Example.momentAt 1010 "A")
      (Example.ask "a" "y")).run (Example.after (Example.events.take 1)).state)).isSome := by
    decide +kernel
  rcases (ledger_agrees (Example.after_reachable (Example.events.take 1))).2
    (Example.momentAt 1010 "A") _ hunforged with hok | ⟨e, t, hrun, _⟩
  · exact hok
  · simp [hrun, Effect.value?] at hanswered

end Server

end AgentOAuth
