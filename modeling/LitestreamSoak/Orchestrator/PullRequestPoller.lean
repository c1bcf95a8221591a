import LitestreamSoak.Orchestrator.PullRequestState
import LitestreamSoak.Store.Deployments

/-!
# Orchestrator — the poller that retires the sources of closed pull requests

`pollOnce` goes through the active sources, asks GitHub about each one that stands for a pull
request of the configured repository, and has a source archived and destroyed when its pull request
is closed. An answer that it cannot rely on leaves the source alone; a rate limit ends the poll.
-/

namespace LitestreamSoak.Orchestrator.PullRequestPoller

open Lib Orchestrator.PullRequestState Store.Deployments List Option

/-! ## §1 — a poll -/

structure Config where
  repositoryAllowlist : List Text
  keepAliveLabel : Text
  rateLimitVisibilityThreshold : Int

/-- The settings as `NewPRStatePoller` takes them over. -/
def Config.label (c : Config) : Text :=
  if trimSpace c.keepAliveLabel = [] then text "soak:keep-alive" else trimSpace c.keepAliveLabel

def Config.threshold (c : Config) : Int :=
  if 0 < c.rateLimitVisibilityThreshold then c.rateLimitVisibilityThreshold else 3600 * second

def Config.repositories (c : Config) : List Text :=
  (c.repositoryAllowlist.map trimSpace).filter (· ≠ [])

/-- What is found out about a source; `none` is a read or a request that fails. -/
structure Answer where
  deployments : Option DeploymentTable
  response : Option Response
  /-- The context is done once the request has failed. -/
  cancelled : Bool
  now : Int
  markedAt : Int

inductive Fetched where
  | rateLimited
  | failed
  | state (s : PullRequestState.State)

def Answer.fetch (a : Answer) (repository : Text) (prNumber : Int) : Fetched :=
  match a.response with
  | none => .failed
  | some r =>
    if splitGitHubRepository repository && r.sameURL && (r.status = 403 || r.status = 429) then
      .rateLimited
    else (fetchPullRequestState a.now repository prNumber r).elim .failed .state

def pullRequestNumberFromSource (source : Text) : Option Int :=
  if hasPrefix source (text "pr-") then
    -- a number that is spelled in another way, as `pr-01`, names no source
    (parseInt (source.drop 3)).filter fun n => 0 < n && text "pr-" ++ (toString n).toList = source
  else none

/-- The number and the recorded repository of a source that the poller asks about. -/
def Answer.subject (a : Answer) (configured source : Text) : Option (Int × Text) := do
  let prNumber ← pullRequestNumberFromSource source
  let t ← a.deployments
  let repository ← (deploymentSourceRepository t source).toOption
  if repository ≠ [] ∧ equalFold repository configured = true then some (prNumber, repository)
  else none

def pullRequestHasLabel (labels : List Text) (label : Text) : Bool :=
  labels.any fun name => equalFold (trimSpace name) label

inductive Verdict where
  /-- The next source; `asked` if GitHub was asked about this one. -/
  | next (asked : Bool)
  | stop
  | rateLimited (now : Int)
  | retire (prNumber : Int) (merged : Bool)

/-- What follows from the answers about one source; **`pollSources`** is the loop. -/
def verdict (cfg : Config) (configured : Text) : Text × Answer → Verdict
  | (source, a) =>
    match a.subject configured source with
    | none => .next false
    | some (prNumber, repository) =>
      match a.fetch repository prNumber with
      -- a state that stays unknown leaves the source alone
      | .failed => if a.cancelled then .stop else .next true
      | .rateLimited => if a.cancelled then .stop else .rateLimited a.markedAt
      | .state s =>
        if s.state = text "open" || pullRequestHasLabel (s.labels.getD []) cfg.label then .next true
        else .retire prNumber (s.merged.getD false)

structure Poller where
  rateLimitedSince : Option Int := none
  lastSustainedEventAt : Option Int := none

inductive Report where
  | rateLimited (time : Int)
  | sustained (time : Int)
  | recovered (time : Int)

structure Outcome where
  /-- The pull requests whose sources are archived and destroyed, and whether they were merged. -/
  retired : List (Int × Bool) := []
  poller : Poller
  report : Option Report := none

def markRateLimited (cfg : Config) (now : Int) (p : Poller) : Outcome :=
  match p.rateLimitedSince with
  | none =>
    { poller := { p with rateLimitedSince := some now }, report := some (.rateLimited now) }
  | some since =>
    if now - since < cfg.threshold then { poller := p }
    else if p.lastSustainedEventAt.any fun last => now - last < cfg.threshold then { poller := p }
    else { poller := { p with lastSustainedEventAt := some now }, report := some (.sustained now) }

def clearRateLimit (now : Int) (p : Poller) : Outcome :=
  if p.rateLimitedSince.isNone then { poller := p }
  else { poller := {}, report := some (.recovered now) }

def pollSources (cfg : Config) (configured : Text) (clearedAt : Int) (p : Poller) (polled : Bool) :
    List (Text × Answer) → Outcome
  -- a poll that has asked about no source forgets a rate limit without a report
  | [] => if polled then clearRateLimit clearedAt p else { poller := {} }
  | b :: rest =>
    match verdict cfg configured b with
    | .next asked => pollSources cfg configured clearedAt p (polled || asked) rest
    | .stop => { poller := p }
    | .rateLimited now => markRateLimited cfg now p
    | .retire prNumber merged =>
      let o := pollSources cfg configured clearedAt p true rest
      { o with retired := (prNumber, merged) :: o.retired }

/-- What a poll meets: the active sources, where they can be listed, and the time at its end. -/
structure Poll where
  sources : Option (List (Text × Answer))
  clearedAt : Int

def pollOnce (cfg : Config) (p : Poller) (poll : Poll) : Outcome :=
  match cfg.repositories, poll.sources with
  | [configured], some sources =>
    if splitGitHubRepository configured then
      pollSources cfg configured poll.clearedAt p false sources
    else { poller := p }
  | _, _ => { poller := p }

/-! ## §2 — what a retirement rests on -/

variable {cfg : Config} {configured : Text} {clearedAt now : Int} {p : Poller}

/-- The answer is a reason to retire the source. -/
structure Terminal (cfg : Config) (configured source : Text) (a : Answer) (n : Int)
    (merged : Bool) :
    Prop where
  named : source = text "pr-" ++ (toString n).toList ∧ 0 < n
  accepted : ∃ t repository r s, a.deployments = some t ∧
    deploymentSourceRepository t source = .ok repository ∧ repository ≠ [] ∧
    equalFold repository configured = true ∧ a.response = some r ∧
    fetchPullRequestState a.now repository n r = some s ∧ s.state = text "closed" ∧
    s.merged = some merged ∧ pullRequestHasLabel (s.labels.getD []) cfg.label = false

theorem subject_spec {a : Answer} {source repository : Text} {n : Int}
    (h : a.subject configured source = some (n, repository)) :
    (source = text "pr-" ++ (toString n).toList ∧ 0 < n) ∧ ∃ t, a.deployments = some t ∧
      deploymentSourceRepository t source = .ok repository ∧ repository ≠ [] ∧
      equalFold repository configured = true := by
  simp only [Answer.subject, bind_eq_bind, bind_eq_some_iff, ite_none_right_eq_some, some.injEq,
    Prod.mk.injEq] at h
  obtain ⟨number, hnumber, t, ht, found, hfound, ⟨hne, hfold⟩, rfl, rfl⟩ := h
  obtain ⟨-, hfilter⟩ := ite_none_right_eq_some.mp hnumber
  obtain ⟨-, hcanonical⟩ := filter_eq_some_iff.mp hfilter
  rw [Bool.and_eq_true, decide_eq_true_eq, decide_eq_true_eq] at hcanonical
  refine ⟨⟨hcanonical.2.symm, hcanonical.1⟩, t, ht, ?_, hne, hfold⟩
  cases hrepository : deploymentSourceRepository t source with
  | error e => simp [hrepository, Except.toOption] at hfound
  | ok r => simpa [hrepository, Except.toOption] using hfound

theorem accepted_spec {s : PullRequestState.State} {repository : Text} {n : Int} {r : Response}
    (h : fetchPullRequestState now repository n r = some s) (hopen : s.state ≠ text "open") :
    s.state = text "closed" ∧ s.merged = some (s.merged.getD false) := by
  obtain ⟨-, -, -, -, -, -, hvalid⟩ := fetch_cases h
  simp only [validateGitHubPullRequestState, Bool.and_eq_true, Bool.or_eq_true, decide_eq_true_eq,
    Option.any_eq_true] at hvalid
  grind

theorem terminal_of_retire {source : Text} {a : Answer} {n : Int} {merged : Bool}
    (h : verdict cfg configured (source, a) = .retire n merged) :
    Terminal cfg configured source a n merged := by
  simp only [verdict] at h
  split at h
  · cases h
  · next number repository hsubject =>
    obtain ⟨hnamed, t, ht, hrecorded, hne, hfold⟩ := subject_spec hsubject
    split at h
    · split at h <;> cases h
    · split at h <;> cases h
    · next s hfetch =>
      split at h
      · cases h
      · next hterminal =>
        cases h
        rw [Bool.or_eq_true, not_or, decide_eq_true_eq, Bool.not_eq_true] at hterminal
        unfold Answer.fetch at hfetch
        split at hfetch
        · cases hfetch
        · next r hr =>
          split at hfetch
          · cases hfetch
          · cases hstate : fetchPullRequestState a.now repository n r with
            | none => simp [hstate] at hfetch
            | some s' =>
              obtain rfl : s' = s := by simpa [hstate] using hfetch
              obtain ⟨hclosed, hmerged⟩ := accepted_spec hstate hterminal.1
              exact ⟨hnamed, t, repository, r, s', ht, hrecorded, hne, hfold, hr, hstate, hclosed,
                hmerged, hterminal.2⟩

/-- A source that does not end the poll was not answered with a rate limit. -/
theorem fetch_ne_rateLimited {b : Text × Answer} (hstop : verdict cfg configured b ≠ .stop)
    (hlimited : ∀ now, verdict cfg configured b ≠ .rateLimited now) {n : Int} {repository : Text}
    (hsubject : b.2.subject configured b.1 = some (n, repository)) :
    b.2.fetch repository n ≠ .rateLimited := by
  intro hfetch
  simp only [verdict, hsubject, hfetch] at hstop hlimited
  split_ifs at hstop hlimited
  · exact hstop rfl
  · exact hlimited _ rfl

/-- A retired source is answered as a reason for it, and no source before it ends the poll. -/
theorem retired_pollSources {polled : Bool} {sources : List (Text × Answer)} {x : Int × Bool}
    (hx : x ∈ (pollSources cfg configured clearedAt p polled sources).retired) :
    ∃ before b after, sources = before ++ b :: after ∧
      verdict cfg configured b = .retire x.1 x.2 ∧
      ∀ c ∈ before, verdict cfg configured c ≠ .stop ∧
        ∀ now, verdict cfg configured c ≠ .rateLimited now := by
  induction sources generalizing polled with
  | nil =>
    unfold pollSources clearRateLimit at hx
    split_ifs at hx <;> cases hx
  | cons b rest ih =>
    -- the retirement is this source's own, or one of the rest
    have hcases : verdict cfg configured b = .retire x.1 x.2 ∨
        (verdict cfg configured b ≠ .stop ∧ ∀ now, verdict cfg configured b ≠ .rateLimited now) ∧
          ∃ polled, x ∈ (pollSources cfg configured clearedAt p polled rest).retired := by
      unfold pollSources at hx
      cases hverdict : verdict cfg configured b with
      | next asked =>
        simp only [hverdict] at hx
        exact .inr ⟨by simp, _, hx⟩
      | stop => simp [hverdict] at hx
      | rateLimited now => grind [markRateLimited]
      | retire n merged => grind
    rcases hcases with hretire | ⟨hfree, _, hlater⟩
    · exact ⟨[], b, rest, rfl, hretire, fun c hc => absurd hc not_mem_nil⟩
    · grind

/-- **What a retirement rests on.** In every poll, from whatever state of the poller, a source is
retired only if one valid repository is configured, the source is an active one that is named after
the pull request, the repository recorded for it is the configured one, and GitHub's answer was
accepted and says that the pull request is closed and does not carry the label; and no source before
it that GitHub was asked about was answered with a rate limit. -/
theorem retires_only_terminal (cfg : Config) (p : Poller) (poll : Poll) (n : Int) (merged : Bool)
    (h : (n, merged) ∈ (pollOnce cfg p poll).retired) :
    ∃ configured before source a after, cfg.repositories = [configured] ∧
      splitGitHubRepository configured = true ∧
      poll.sources = some (before ++ (source, a) :: after) ∧
      Terminal cfg configured source a n merged ∧
      ∀ b ∈ before, ∀ number repository, b.2.subject configured b.1 = some (number, repository) →
        b.2.fetch repository number ≠ .rateLimited := by
  unfold pollOnce at h
  split at h
  · next configured sources hconfigured hsources =>
    split at h
    · next hsplit =>
      obtain ⟨before, ⟨source, a⟩, after, rfl, hretire, hbefore⟩ := retired_pollSources h
      exact ⟨configured, before, source, a, after, hconfigured, hsplit, hsources,
        terminal_of_retire hretire, fun b hb _ _ hsubject =>
          fetch_ne_rateLimited (hbefore b hb).1 (hbefore b hb).2 hsubject⟩
    · cases h
  · cases h

/-- A poll of the one source `pr-1`; the later spelling of its state counts. -/
theorem retires_only_terminal_one : ∃ configured source a,
    Terminal ⟨[text "o/n"], [], 0⟩ configured source a 1 false := by
  let deployments : DeploymentTable :=
    ⟨[⟨1, [], [], [], [], text "pr-1", text "o/n", .ready, 0, false, 1⟩], by simp⟩
  let a : Answer := ⟨some deployments,
    some (answer [] [(text "State", .string (text "closed"))]), false, 0, 0⟩
  obtain ⟨configured, -, source, a, -, -, -, -, h, -⟩ := retires_only_terminal
    ⟨[text "o/n"], [], 0⟩ {} ⟨some [(text "pr-1", a)], 0⟩ 1 false (by decide)
  exact ⟨configured, source, a, h⟩

/-! ## §3 — the reports of a run -/

/-- How a poll leaves the poller, and what it reports. -/
inductive Ends (cfg : Config) (p : Poller) : Poller → Option Report → Prop where
  | kept : Ends cfg p p none
  | begun (now : Int) (h : p.rateLimitedSince = none) :
      Ends cfg p { p with rateLimitedSince := some now } (some (.rateLimited now))
  | sustained {since : Int} (now : Int) (h : p.rateLimitedSince = some since)
      (hlong : cfg.threshold ≤ now - since)
      (hlast : ∀ last ∈ p.lastSustainedEventAt, cfg.threshold ≤ now - last) :
      Ends cfg p { p with lastSustainedEventAt := some now } (some (.sustained now))
  | cleared {since : Int} (now : Int) (h : p.rateLimitedSince = some since) :
      Ends cfg p {} (some (.recovered now))
  | reset : Ends cfg p {} none

theorem ends_pollSources (polled : Bool) (sources : List (Text × Answer)) :
    Ends cfg p (pollSources cfg configured clearedAt p polled sources).poller
      (pollSources cfg configured clearedAt p polled sources).report := by
  induction sources generalizing polled with
  | nil =>
    unfold pollSources clearRateLimit
    split_ifs with hpolled hnone
    · exact .kept
    · obtain ⟨since, hsince⟩ := ne_none_iff_exists'.mp (mt isNone_iff_eq_none.mpr hnone)
      exact .cleared clearedAt hsince
    · exact .reset
  | cons b rest ih =>
    unfold pollSources
    split
    · exact ih _
    · exact .kept
    · next now hverdict =>
      unfold markRateLimited
      split
      · next hnone => exact .begun now hnone
      · next since hsince =>
        split_ifs with hshort hrecent
        · exact .kept
        · exact .kept
        · refine .sustained now hsince (not_lt.mp hshort) fun last hlast => ?_
          by_contra hlate
          exact hrecent ((Option.any_eq_true _ _).mpr
            ⟨last, hlast, decide_eq_true (not_le.mp hlate)⟩)
    · exact ih true

theorem ends_pollOnce (cfg : Config) (p : Poller) (poll : Poll) :
    Ends cfg p (pollOnce cfg p poll).poller (pollOnce cfg p poll).report := by
  unfold pollOnce
  split
  · split
    · exact ends_pollSources _ _
    · exact .kept
  · exact .kept

/-- The poller and its reports, newest first, after the polls, newest first. -/
def run (cfg : Config) : List Poll → Poller × List Report
  | [] => ({}, [])
  | poll :: polls =>
    let o := pollOnce cfg (run cfg polls).1 poll
    (o.poller, o.report.toList ++ (run cfg polls).2)

/-- The time of a report that a rate limit goes on. -/
def Report.ongoing : Report → Option Int
  | .rateLimited time | .sustained time => some time
  | .recovered _ => none

/-- What a report follows: a rate limit that was reported, and for a sustained one, that report was
at least the threshold ago. -/
def Follows (threshold : Int) : Report → List Report → Prop
  | .rateLimited _, _ => True
  | .sustained now, before => ∃ last ∈ before.head?, ∃ time ∈ last.ongoing, threshold ≤ now - time
  | .recovered _, before => ∃ last ∈ before.head?, last.ongoing.isSome = true

/-- Every report follows from those before it. -/
def Justified (threshold : Int) : List Report → Prop
  | [] => True
  | r :: before => Follows threshold r before ∧ Justified threshold before

/-- What the poller remembers of a rate limit is the last report. -/
structure Remembers (p : Poller) (reports : List Report) : Prop where
  ongoing : ∀ since ∈ p.rateLimitedSince, ∃ last ∈ reports.head?,
    last.ongoing = some (p.lastSustainedEventAt.getD since)
  ended : p.rateLimitedSince = none → p.lastSustainedEventAt = none

theorem remembers_nil (reports : List Report) : Remembers {} reports where
  ongoing since h := by cases h
  ended _ := rfl

theorem Ends.justified {p' : Poller} {report : Option Report} {reports : List Report}
    (h : Ends cfg p p' report) (hp : Remembers p reports) (hall : Justified cfg.threshold reports) :
    Remembers p' (report.toList ++ reports) ∧
      Justified cfg.threshold (report.toList ++ reports) := by
  cases h with
  | kept => exact ⟨hp, hall⟩
  | reset => exact ⟨remembers_nil _, hall⟩
  | begun now hnone =>
    refine ⟨⟨fun since hsince => ⟨_, rfl, ?_⟩, fun h => absurd h (some_ne_none _)⟩, trivial, hall⟩
    rw [hp.ended hnone]
    exact hsince
  | sustained now hsince hlong hlast =>
    obtain ⟨last, hmem, hongoing⟩ := hp.ongoing _ hsince
    -- the last report was the first of this rate limit, or the last sustained one
    refine ⟨⟨fun _ _ => ⟨_, rfl, rfl⟩, fun h => ?_⟩, ⟨last, hmem, _, hongoing, ?_⟩, hall⟩
    · exact absurd (hsince.symm.trans h) (some_ne_none _)
    · cases hs : p.lastSustainedEventAt with
      | none => exact hlong
      | some time => exact hlast time hs
  | cleared now hsince =>
    obtain ⟨last, hmem, hongoing⟩ := hp.ongoing _ hsince
    exact ⟨remembers_nil _, ⟨last, hmem, by rw [hongoing]; rfl⟩, hall⟩

theorem remembers_run (cfg : Config) (polls : List Poll) :
    Remembers (run cfg polls).1 (run cfg polls).2 ∧
      Justified cfg.threshold (run cfg polls).2 := by
  induction polls with
  | nil => exact ⟨remembers_nil _, trivial⟩
  | cons poll polls ih => exact (ends_pollOnce cfg _ poll).justified ih.1 ih.2

/-- **The reports of a run.** In every run of polls, whatever GitHub answers, the end of a rate
limit is reported only right after a report that it goes on, and a sustained one only at least the
threshold after the last such report. -/
theorem reports_justified (cfg : Config) (polls : List Poll) :
    Justified cfg.threshold (run cfg polls).2 :=
  (remembers_run cfg polls).2

end LitestreamSoak.Orchestrator.PullRequestPoller
