import AgentOAuth.Proofs.Authority
import Mathlib.Tactic.NormNum

/-!
# Authority that is taken back

There is no revocation: whoever holds a token may exchange it until it expires.
Still, once no active client of a subject may hold a scope any more, no new
lineage brings the scope to life on that subject's behalf, and a lineage never
outlives its root.  So one token lifetime later nobody can use the scope in the
name of the subject, at whatever depth and in whoever's hands the tokens are
(`withdrawn_scope_expires`).
-/

namespace AgentOAuth

open Provenance Transition

/-- No active client of the subject may hold the scope. -/
def Withdrawn (subject scope : String) (clients : ClientTable) : Prop :=
  ∀ client ∈ clients, client.subject = subject → client.status = .active →
    scope ∉ client.allowedScopes

namespace Server

/-- Every root that the past issued to the subject was minted by `t`. -/
def LoginsBy (server : Server) (past : List (World × Event)) (subject : String) (t : ℚ) : Prop :=
  ∀ v moment request x a, (v, Event.request moment request) ∈ past →
    server.RootIssue v.state moment request x a → a.subject = subject → moment.minted ≤ t

variable {server : Server} {w : World} {recent earlier : List (World × Event)}
  {d : Derivation Signed} {a : Signed} {subject scope : String}

/-- A root that holds a withdrawn scope was issued before the withdrawal. -/
theorem rootIn_earlier
    (hwithdrawn : ∀ v event, (v, event) ∈ recent → Withdrawn subject scope v.state.clients)
    (h : server.RootIn (recent ++ earlier) a) (hsubject : a.subject = subject)
    (hscope : scope ∈ a.scopes) : server.RootIn earlier a := by
  obtain ⟨v, moment, request, x, hmem, hissue⟩ := h
  rcases List.mem_append.mp hmem with hrecent | hearlier
  · have hcaller : x.login.caller.subject = subject := by
      rw [← hsubject, Signed.subject_eq hissue.sub]
    rw [Signed.scopes_eq hissue.parse_scope, List.mem_toFinset] at hscope
    exact absurd (hissue.scope_allowed hscope)
      (hwithdrawn v _ hrecent _ hissue.succeeds.login.caller_mem hcaller hissue.active)
  · exact ⟨v, moment, request, x, hearlier, hissue⟩

/-- The second written into a root is at most one lifetime after its request. -/
theorem exp_le_of_root {past : List (World × Event)} {t : ℚ} (h : server.RootIn past a)
    (hsubject : a.subject = subject) (ht : server.LoginsBy past subject t) :
    (a.exp : ℚ) ≤ t + server.settings.accessTokenTtlSeconds := by
  obtain ⟨v, moment, request, x, hmem, hissue⟩ := h
  have hend : server.pipeline.minter.expiresAt moment.minted none none ≤
      moment.minted + server.settings.accessTokenTtlSeconds :=
    TokenMinter.expiresAt_le_ttl _ _ _ _
  rw [Signed.exp_eq hissue.signedFrom.exp]
  calc (⌊server.pipeline.minter.expiresAt moment.minted none none⌋ : ℚ)
      ≤ server.pipeline.minter.expiresAt moment.minted none none := Int.floor_le _
    _ ≤ moment.minted + server.settings.accessTokenTtlSeconds := hend
    _ ≤ t + server.settings.accessTokenTtlSeconds :=
        (Rat.add_le_add_right).mpr (ht v moment request x a hmem hissue hsubject)

/-- The library accepts no issued token that has expired. -/
theorem not_decode_of_expired (hw : server.system.Reachable w) (hd : d ∈ w.issued) {now : ℚ}
    (hexpired : (d.value.exp : ℚ) ≤ now) (options : DecodeOptions) (key : PublicKey)
    (claims : Dict) : server.jwt.decode options key now d.value.token ≠ .ok claims := by
  intro hdecode
  have hgenuine := issued_genuine hw d hd
  obtain rfl := Except.ok.inj (hgenuine.symm.trans (server.jwt.decode_claims hdecode))
  obtain ⟨exp, _, hexp, _⟩ := lifetime_of_holds (issued_holds_of_reachable hw d hd)
  have halive := server.jwt.decode_exp hdecode exp (by rw [hexp]; rfl)
  rw [truncate_intCast] at halive
  rw [Signed.exp_eq hexp] at hexpired
  exact absurd halive (not_lt.mpr hexpired)

/-- **A withdrawn scope expires.**  When the registry of every recent event lets
no active client of a subject hold a scope, and the last earlier login of the
subject was at `t`, then the scope is used on behalf of the subject until one
lifetime after `t` and never again: every token that carries it, however far it
was delegated and whenever it was issued, is refused by then. -/
theorem withdrawn_scope_expires (hrun : server.system.Run (recent ++ earlier) w)
    (hwithdrawn : ∀ v event, (v, event) ∈ recent → Withdrawn subject scope v.state.clients)
    {t : ℚ} (ht : server.LoginsBy earlier subject t) (hd : d ∈ w.issued) (hsubject : d.source.subject = subject)
    (hscope : scope ∈ d.value.scopes) :
    (d.value.exp : ℚ) ≤ t + server.settings.accessTokenTtlSeconds ∧
      ∀ options key now claims, t + server.settings.accessTokenTtlSeconds ≤ now →
        server.jwt.decode options key now d.value.token ≠ .ok claims := by
  have hholds := issued_in_run hrun d hd
  have hanc := Derivation.ancestor_source d
  have hroot : server.RootIn earlier d.source :=
    rootIn_earlier hwithdrawn (hanc.holds hholds).of_root hsubject
      (scope_of_ancestor hrun hd hanc hscope)
  have hsource : d.value.exp ≤ d.source.exp :=
    hholds.ancestor_le Signed.exp (fun _ _ _ h => exp_le_of_hop (hopIssued_of_in hrun h)) hanc
  have hexp : (d.value.exp : ℚ) ≤ t + server.settings.accessTokenTtlSeconds := by
    calc (d.value.exp : ℚ) ≤ d.source.exp := Int.cast_le.mpr hsource
      _ ≤ t + server.settings.accessTokenTtlSeconds := exp_le_of_root hroot hsubject ht
  refine ⟨hexp, fun options key now claims hnow => ?_⟩
  exact not_decode_of_expired hrun.reachable hd (hexp.trans hnow) options key claims

end Server

namespace Example.Withdrawal

/-- R is no longer allowed `x`. -/
def narrowed : ClientTable :=
  ⟨[{ clientR with allowedScopes := {"y"} }, clientA, clientC], by decide⟩

/-- The requests before the withdrawal. -/
def before : List Event := events.take 3

def withdrawn : World :=
  { after before with
    state := { (after before).state with clients := narrowed, clientKeys := Table.empty } }

/-- C exchanges R's token after the withdrawal. -/
def late : Event := .exchange (momentAt 1030 "RA") (exchange "c" "R" "AA") treeR treeAA

theorem withdrawn_narrowed : Withdrawn "root" "x" withdrawn.state.clients := by
  have hall : ∀ client ∈ narrowed.rows, client.subject = "root" → client.status = .active →
      "x" ∉ client.allowedScopes := by
    decide
  exact hall

/-- A run to the withdrawal, with the last login at 1010. -/
theorem run_withdrawn : ∃ past, server.system.Run past withdrawn ∧
    server.LoginsBy past "root" 1010 := by
  have hreplay : (server.system.replay Example.start before).isSome = true := by
    decide +kernel
  obtain ⟨w, hw⟩ := Option.isSome_iff_exists.mp hreplay
  have hafter : w = after before := by rw [after, hw, Option.getD_some]
  have hstart : server.system.Run [] Example.start := .init ⟨rfl, rfl, rfl⟩
  obtain ⟨past, hrun, hevents⟩ := hstart.replay hw
  rw [List.append_nil, hafter] at hrun
  refine ⟨_, .step (.administer narrowed Table.empty) hrun rfl,
    fun v moment request _ _ hmem _ _ => ?_⟩
  rcases List.mem_cons.mp hmem with heq | hmem
  · cases heq
  · have hevent := List.mem_map_of_mem (f := Prod.snd) hmem
    rw [hevents] at hevent
    simp only [before, events, List.take, List.reverse_cons, List.reverse_nil, List.nil_append,
      List.cons_append, List.mem_cons, List.not_mem_nil, or_false, reduceCtorEq, false_or,
      Event.request.injEq] at hevent
    rcases hevent with ⟨rfl, _⟩ | ⟨rfl, _⟩ <;> norm_num [momentAt]

end Example.Withdrawal

namespace Server

/-- A token that holds the scope is still issued after the withdrawal, and is
refused from 1610 on. -/
theorem withdrawn_scope_expires_late :
    ∃ w, Example.server.step Example.Withdrawal.withdrawn Example.Withdrawal.late = some w ∧
      Example.treeRA ∈ w.issued ∧ "x" ∈ Example.treeRA.value.scopes ∧
      ∀ options key claims,
        Example.server.jwt.decode options key 1610 Example.treeRA.value.token ≠ .ok claims := by
  have hissued : (Example.server.step Example.Withdrawal.withdrawn Example.Withdrawal.late).map
      World.issued = some [Example.treeRA, Example.treeAA, Example.treeA, Example.treeR] := by
    decide +kernel
  obtain ⟨w, hw, hw_issued⟩ := Option.map_eq_some_iff.mp hissued
  obtain ⟨past, hrun, ht⟩ := Example.Withdrawal.run_withdrawn
  have hmem : Example.treeRA ∈ w.issued := by simp [hw_issued]
  have hscope : "x" ∈ Example.treeRA.value.scopes := by decide +kernel
  have hrun : Example.server.system.Run
      ([(Example.Withdrawal.withdrawn, Example.Withdrawal.late)] ++ past) w := .step _ hrun hw
  have hwithdrawn : ∀ v event,
      (v, event) ∈ [(Example.Withdrawal.withdrawn, Example.Withdrawal.late)] →
        Withdrawn "root" "x" v.state.clients := by
    intro v event hrecent
    obtain ⟨rfl, rfl⟩ := Prod.mk.inj (List.mem_singleton.mp hrecent)
    exact Example.Withdrawal.withdrawn_narrowed
  have hexpires := withdrawn_scope_expires hrun hwithdrawn ht hmem (by decide +kernel) hscope
  refine ⟨w, hw, hmem, hscope, fun options key claims => hexpires.2 options key 1610 claims ?_⟩
  have hlifetime : Example.server.settings.accessTokenTtlSeconds = 600 := rfl
  rw [hlifetime]
  norm_num

end Server

end AgentOAuth
