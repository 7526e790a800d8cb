import Logbook.Node.Service
import Logbook.Proofs.Ingest.AllOrNothing

set_option autoImplicit false

/-! # What a node counts

A request for one of the paths on which rows arrive, or for a search, is counted once however it
ends: at its parameters, at a storage node, at its body or with its answer. It is counted as failed
exactly if the answer says so, and its rows and its time are counted exactly if the rows have been
written. So the counts always balance with the requests that have been answered
(**`Node.counts_balance`**), whatever paths they came on and whatever the storage nodes did. The
paths have checks of their own, but count alike (**`Ingestion.serve_eq`**). -/

namespace Logbook

/-! ## Counts -/

namespace Counters

theorem countSkipped_zero (path : IngestPath) (c : Counters) : c.countSkipped path 0 = c := by
  cases path <;> rfl

theorem path_update (c : Counters) (path q : IngestPath) (f : IngestCounts → IngestCounts) :
    (c.update path f).path q = if q = path then f (c.path q) else c.path q := by
  cases path <;> cases q <;> rfl

theorem searches_update (c : Counters) (path : IngestPath) (f : IngestCounts → IngestCounts) :
    (c.update path f).searches = c.searches := by
  cases path <;> rfl

theorem failedSearches_update (c : Counters) (path : IngestPath)
    (f : IngestCounts → IngestCounts) : (c.update path f).failedSearches = c.failedSearches := by
  cases path <;> rfl

theorem path_countSearch (c : Counters) (q : IngestPath) : c.countSearch.path q = c.path q := by
  cases q <;> rfl

theorem path_countFailedSearch (c : Counters) (q : IngestPath) :
    c.countFailedSearch.path q = c.path q := by
  cases q <;> rfl

end Counters

/-! ## Requests for rows -/

/-- What a request on a path asks for, unless it asks for what cannot be. -/
def IngestJob.ofRequest (path : IngestPath) (args : Args) (headers : Http.Headers) (limit : Nat) :
    Except IngestError IngestJob :=
  match path with
  | .opentelemetry => do
    if saysJson headers then throw .jsonLogs
    let p ← IngestParams.ofArgs args
    return { format := .opentelemetry, classifier := p.classifier, limit }
  | .jsonLines => do
    let p ← IngestParams.ofArgs args
    return { format := .jsonLines p.timeFields, classifier := p.classifier, limit }
  | .native => do
    checkVersion args
    let p ← IngestParams.ofArgs args
    return { format := .native, classifier := p.classifier, limit }
  | .forwarded => do
    checkVersion args
    return { format := .native, classifier := {}, limit := unlimited }

/-- The rows that a request asks to store, unless it asks for what cannot be or its body cannot be
    read. -/
def IngestJob.rows (path : IngestPath) (args : Args) (headers : Http.Headers)
    (chunks : List Body.Chunk) (limit : Nat) (now : Timestamp) :
    Except IngestError (List StoredRow) := do
  let job ← IngestJob.ofRequest path args headers limit
  let (decoded, _) ← job.decodeBody headers chunks
  return decoded.map (job.classifier.apply now)

namespace Ingestion

variable {σ : Type} (t : Topology σ) (path : IngestPath) (headers : Http.Headers)
  (chunks : List Body.Chunk) (now : Timestamp) (world : σ) (counters : Counters)

/-- A request that is refused is one that fails as soon as it is counted. -/
theorem timed_liftExcept_bind {α β : Type} (micros : Nat) (check : Except IngestError β)
    (act : β → Ingestion σ α) :
    timed path micros (liftExcept check >>= act)
      = orRefuse path check >>= fun x => timed path micros (act x) := by
  cases check <;> rfl

/-- **Every path counts its requests alike**, whatever it checks before it runs them. -/
theorem serve_eq (args : Args) (limit micros : Nat) :
    serve t path args headers chunks limit now micros
      = timed path micros (do
        let job ← liftExcept (IngestJob.ofRequest path args headers limit)
        receive t path job headers chunks now) := by
  rw [timed_liftExcept_bind]
  cases path with
  | opentelemetry =>
    unfold serve IngestJob.ofRequest
    cases IngestJob.saysJson headers with
    | true => rfl
    | false =>
      unfold commonParams
      cases IngestParams.ofArgs args <;> rfl
  | jsonLines =>
    unfold serve IngestJob.ofRequest commonParams
    cases IngestParams.ofArgs args <;> rfl
  | native =>
    unfold serve IngestJob.ofRequest nativeVersion commonParams
    cases IngestJob.checkVersion args with
    | error e => rfl
    | ok u => cases IngestParams.ofArgs args <;> rfl
  | forwarded =>
    unfold serve IngestJob.ofRequest nativeVersion
    cases IngestJob.checkVersion args <;> rfl

/-- A request ends with a failure before its rows are counted, or its rows are written after all
    nodes have been asked. -/
theorem receive_cases (job : IngestJob) :
    (∃ e world' skipped, (receive t path job headers chunks now).run.run (world, counters)
      = (.error e, (world', counters.countSkipped path skipped))) ∨
    ∃ decoded skipped asked world', t.canWrite.run.run world = (.ok (), asked) ∧
      job.decodeBody headers chunks = .ok (decoded, skipped) ∧
      (t.write (decoded.map (job.classifier.apply now))).run.run asked = (.ok (), world') ∧
      (receive t path job headers chunks now).run.run (world, counters)
        = (.ok decoded.length,
          (world', (counters.countSkipped path skipped).countRows path decoded.length)) := by
  unfold receive
  cases hasked : t.canWrite.run.run world with
  | mk result asked =>
    have hcall := run_ofCall counters hasked
    cases result with
    | error e =>
      refine Or.inl ⟨.node e, asked, 0, ?_⟩
      rw [run_bind_of_error hcall, Counters.countSkipped_zero]
    | ok u =>
      rw [run_bind_of_ok hcall]
      have hread := run_liftExcept (asked, counters) (job.decodeBody headers chunks)
      cases hbody : job.decodeBody headers chunks with
      | error e =>
        rw [hbody] at hread
        refine Or.inl ⟨e, asked, 0, ?_⟩
        rw [run_bind_of_error hread, Counters.countSkipped_zero]
      | ok outcome =>
        obtain ⟨decoded, skipped⟩ := outcome
        rw [hbody] at hread
        rw [run_bind_of_ok hread, run_bind_of_ok (run_count ..)]
        cases hwritten : (t.write (decoded.map (job.classifier.apply now))).run.run asked with
        | mk result world' =>
          have hwrite := run_ofCall (counters.countSkipped path skipped) hwritten
          cases result with
          | error e =>
            refine Or.inl ⟨.node e, world', skipped, ?_⟩
            rw [run_bind_of_error hwrite]
          | ok u =>
            refine Or.inr ⟨decoded, skipped, asked, world', rfl, rfl, hwritten, ?_⟩
            rw [run_bind_of_ok hwrite, run_bind_of_ok (run_count ..), List.length_map]
            rfl

/-- A request is counted once, with its failure or with the rows that it has written. -/
theorem serve_cases (args : Args) (limit micros : Nat) :
    (∃ e world' skipped,
      (serve t path args headers chunks limit now micros).run.run (world, counters)
        = (.error e, (world', ((counters.countRequest path).countSkipped path skipped).countError
            path))) ∨
    ∃ rows skipped asked world', t.canWrite.run.run world = (.ok (), asked) ∧
      IngestJob.rows path args headers chunks limit now = .ok rows ∧
      (t.write rows).run.run asked = (.ok (), world') ∧
      (serve t path args headers chunks limit now micros).run.run (world, counters)
        = (.ok rows.length, (world',
          (((counters.countRequest path).countSkipped path skipped).countRows path
            rows.length).countMicros path micros)) := by
  rw [serve_eq]
  have hparams := run_liftExcept (world, counters.countRequest path)
    (IngestJob.ofRequest path args headers limit)
  cases hjob : IngestJob.ofRequest path args headers limit with
  | error e =>
    rw [hjob] at hparams
    refine Or.inl ⟨e, world, 0, ?_⟩
    rw [Counters.countSkipped_zero]
    exact run_timed_of_error micros (run_bind_of_error hparams)
  | ok job =>
    rw [hjob] at hparams
    have hrun := run_bind_of_ok (f := fun job => receive t path job headers chunks now) hparams
    rcases receive_cases t path headers chunks now world (counters.countRequest path) job with
      ⟨e, world', skipped, hfailed⟩ |
        ⟨decoded, skipped, asked, world', hasked, hbody, hwritten, hdone⟩
    · exact Or.inl ⟨e, world', skipped, run_timed_of_error micros (hrun.trans hfailed)⟩
    · refine Or.inr ⟨_, skipped, asked, world', hasked, ?_, hwritten, ?_⟩
      · rw [IngestJob.rows, hjob]
        simp only [bind, Except.bind, hbody]
        rfl
      · rw [List.length_map]
        exact run_timed_of_ok micros (hrun.trans hdone)

end Ingestion

/-! ## Answers -/

/-- The response to a request for rows says whether it failed. -/
theorem Node.isSuccess_ingestResponse (result : Except IngestError Nat) :
    (ingestResponse result).isSuccess = result.isOk := by
  cases result with
  | ok stored => rfl
  | error e =>
    rcases e with _ | _ | _ | _ | _ | _ | _ | _ | ⟨name, fault⟩
    case node => cases fault <;> rfl
    all_goals rfl

theorem SearchError.not_isSuccess (e : SearchError) :
    (Http.Response.ofText e.status e.message).isSuccess = false := by
  rcases e with _ | _ | _ | ⟨name, fault⟩ | _
  case node => cases fault <;> rfl
  all_goals rfl

/-- Whatever a search comes to is rendered as a success. -/
theorem SearchPlan.isSuccess_render {kind : SearchKind} {args : Args} {now : Timestamp}
    {timeout : Nat} {plan : SearchPlan} (h : ofArgs kind args now timeout = .ok plan)
    (rows : List QueryRow) : (plan.render rows).isSuccess = true := by
  cases kind with
  | rows =>
    obtain ⟨q, -, h⟩ := exists_of_bind_eq_ok h
    obtain ⟨limit, -, h⟩ := exists_of_bind_eq_ok h
    obtain ⟨nanos, -, h⟩ := exists_of_bind_eq_ok h
    cases h
    rfl
  | facets =>
    obtain ⟨q, -, h⟩ := exists_of_bind_eq_ok h
    obtain ⟨limit, -, h⟩ := exists_of_bind_eq_ok h
    obtain ⟨values, -, h⟩ := exists_of_bind_eq_ok h
    obtain ⟨length, -, h⟩ := exists_of_bind_eq_ok h
    obtain ⟨nanos, -, h⟩ := exists_of_bind_eq_ok h
    cases h
    rfl
  | statsAt =>
    obtain ⟨time, -, h⟩ := exists_of_bind_eq_ok h
    obtain ⟨q, -, h⟩ := exists_of_bind_eq_ok h
    obtain ⟨l, -, h⟩ := exists_of_bind_eq_ok h
    obtain ⟨nanos, -, h⟩ := exists_of_bind_eq_ok h
    cases h
    rfl
  | statsOver =>
    obtain ⟨step, -, h⟩ := exists_of_bind_eq_ok h
    obtain ⟨q, -, h⟩ := exists_of_bind_eq_ok h
    dsimp only at h
    split at h
    · obtain ⟨l, -, h⟩ := exists_of_bind_eq_ok h
      obtain ⟨nanos, -, h⟩ := exists_of_bind_eq_ok h
      cases h
      rfl
    · cases h

namespace Node

variable {σ : Type} (n : Node σ) (world : σ) (counters : Counters)

theorem run_answerIngest {path : IngestPath} {now : Timestamp} {micros : Nat} {args : Args}
    {headers : Http.Headers} {chunks : List Body.Chunk} {result : Except IngestError Nat}
    {state : σ × Counters}
    (h : (Ingestion.serve n.topology path args headers chunks n.config.maxRequestSize now
      micros).run.run (world, counters) = (result, state)) :
    (n.answerIngest path now micros args headers chunks).run (world, counters)
      = (ingestResponse result, state) := by
  rw [answerIngest, StateT.run_bind, h]
  rfl

theorem isSuccess_of_search {kind : SearchKind} {now : Timestamp} {r : Http.Request}
    {response : Http.Response} {world world' : σ}
    (h : (n.search kind now r).run.run world = (.ok response, world')) :
    response.isSuccess = true := by
  obtain ⟨plan, asked, hplan, hrun⟩ := exists_of_run_bind_eq_ok h
  obtain ⟨rows, state, -, hrender⟩ := exists_of_run_bind_eq_ok hrun
  cases hrender
  cases hread : SearchPlan.ofArgs kind (searchArgs r) now n.config.timeout with
  | error e =>
    rw [hread] at hplan
    cases hplan
  | ok plan =>
    rw [hread] at hplan
    cases hplan
    exact SearchPlan.isSuccess_render hread rows

/-- A search is counted once, and once more as failed if that is its answer. -/
theorem run_answerSearch (kind : SearchKind) (now : Timestamp) (r : Http.Request) :
    ∃ response world', (n.answerSearch kind now r).run (world, counters)
      = (response, (world', if response.isSuccess then counters.countSearch
          else counters.countSearch.countFailedSearch)) := by
  cases h : (n.search kind now r).run.run world with
  | mk result world' =>
    have hsearch : (n.search kind now r).run world = (result, world') := h
    cases result with
    | ok response =>
      refine ⟨response, world', ?_⟩
      rw [isSuccess_of_search n h]
      simp only [answerSearch, StateT.run, hsearch, if_true]
    | error e =>
      refine ⟨.ofText e.status e.message, world', ?_⟩
      rw [e.not_isSuccess]
      simp only [answerSearch, StateT.run, hsearch, Bool.false_eq_true, if_false]

end Node

/-! ## Runs -/

/-- A request for one of the paths on which rows arrive, its body in chunks and the time that it
    takes, or for a search. -/
inductive Visit where
  | ingest (path : IngestPath) (args : Args) (headers : Http.Headers) (chunks : List Body.Chunk)
    (micros : Nat)
  | search (kind : SearchKind) (request : Http.Request)

namespace Visit

def isOn (path : IngestPath) : Visit → Bool
  | .ingest p .. => path = p
  | .search .. => false

def isSearch : Visit → Bool
  | .ingest .. => false
  | .search .. => true

/-- The rows that a visit asks to store, if it can be understood. -/
def rows (limit : Nat) (now : Timestamp) : Visit → Except IngestError (List StoredRow)
  | .ingest path args headers chunks _ => IngestJob.rows path args headers chunks limit now
  | .search .. => .ok []

/-- The microseconds that a visit takes which is a request for rows. -/
def micros : Visit → Nat
  | .ingest _ _ _ _ micros => micros
  | .search .. => 0

end Visit

/-- A visit with its answer and what the state was before and after it. -/
structure Served (σ : Type) where
  now : Timestamp
  visit : Visit
  before : σ × Counters
  response : Http.Response
  after : σ × Counters

namespace Served

variable {σ : Type}

def isOn (path : IngestPath) (s : Served σ) : Bool :=
  s.visit.isOn path

def isSearch (s : Served σ) : Bool :=
  s.visit.isSearch

def failed (s : Served σ) : Bool :=
  !s.response.isSuccess

/-- The rows of a visit that was answered with success. -/
def stored (limit : Nat) (s : Served σ) : List StoredRow :=
  if s.failed then [] else (s.visit.rows limit s.now).toOption.getD []

/-- The microseconds of a visit that was answered with success. -/
def micros (s : Served σ) : Nat :=
  if s.failed then 0 else s.visit.micros

/-- What one request for rows adds to the counts of its path. -/
def addTo (limit : Nat) (s : Served σ) (skipped : Nat) (counts : IngestCounts) : IngestCounts :=
  { counts with
    requests := counts.requests + 1
    errors := counts.errors + if s.failed then 1 else 0
    rows := counts.rows + (s.stored limit).length
    skipped := counts.skipped + skipped
    micros := counts.micros + s.micros }

/-- All nodes took writes, and writing these rows is the last that was done. -/
def Wrote (t : Topology σ) (s : Served σ) (rows : List StoredRow) : Prop :=
  ∃ asked, t.canWrite.run.run s.before.1 = (.ok (), asked) ∧
    (t.write rows).run.run asked = (.ok (), s.after.1)

end Served

/-- The rows that the visits on a path stored. -/
def storedOn {σ : Type} (limit : Nat) (path : IngestPath) (trace : List (Served σ)) :
    List StoredRow :=
  (trace.filter (·.isOn path)).flatMap (·.stored limit)

/-- The counts after a run are those before it and what its visits add to them. -/
structure Counters.Balanced {σ : Type} (limit : Nat) (before after : Counters)
    (trace : List (Served σ)) : Prop where
  requests : ∀ path,
    (after.path path).requests = (before.path path).requests + trace.countP (·.isOn path)
  errors : ∀ path, (after.path path).errors
    = (before.path path).errors + trace.countP fun s => s.isOn path && s.failed
  rows : ∀ path,
    (after.path path).rows = (before.path path).rows + (storedOn limit path trace).length
  micros : ∀ path, (after.path path).micros
    = (before.path path).micros + ((trace.filter (·.isOn path)).map (·.micros)).sum
  searches : after.searches = before.searches + trace.countP (·.isSearch)
  failedSearches : after.failedSearches
    = before.failedSearches + trace.countP fun s => s.isSearch && s.failed

theorem Counters.balanced_nil {σ : Type} (limit : Nat) (c : Counters) :
    Balanced (σ := σ) limit c c [] :=
  ⟨fun _ => rfl, fun _ => rfl, fun _ => rfl, fun _ => rfl, rfl, rfl⟩

theorem Counters.Balanced.append {σ : Type} {limit : Nat} {c d e : Counters}
    {xs ys : List (Served σ)} (h : Balanced limit c d xs) (h' : Balanced limit d e ys) :
    Balanced limit c e (xs ++ ys) where
  requests path := by
    rw [h'.requests, h.requests, List.countP_append, Nat.add_assoc]
  errors path := by
    rw [h'.errors, h.errors, List.countP_append, Nat.add_assoc]
  rows path := by
    rw [h'.rows, h.rows, storedOn, storedOn, storedOn, List.filter_append, List.flatMap_append,
      List.length_append, Nat.add_assoc]
  micros path := by
    rw [h'.micros, h.micros, List.filter_append, List.map_append, List.sum_append, Nat.add_assoc]
  searches := by
    rw [h'.searches, h.searches, List.countP_append, Nat.add_assoc]
  failedSearches := by
    rw [h'.failedSearches, h.failedSearches, List.countP_append, Nat.add_assoc]

namespace Node

variable {σ : Type} (n : Node σ)

/-- The answer to a visit. -/
def answerVisit (now : Timestamp) : Visit → Serving σ Http.Response
  | .ingest path args headers chunks micros =>
    n.answerIngest path now micros args headers chunks
  | .search kind request => n.answerSearch kind now request

def serve (now : Timestamp) (visit : Visit) (state : σ × Counters) : Served σ :=
  let answered := (n.answerVisit now visit).run state
  ⟨now, visit, state, answered.1, answered.2⟩

/-- Serves visits one after another, each at its own time. -/
def serveAll : List (Timestamp × Visit) → σ × Counters → List (Served σ) × (σ × Counters)
  | [], state => ([], state)
  | (now, visit) :: rest, state =>
    let s := n.serve now visit state
    let (trace, last) := serveAll rest s.after
    (s :: trace, last)

/-- What one search adds. -/
theorem balanced_search {limit : Nat} {s : Served σ} (hvisit : s.visit.isSearch = true)
    (hafter : s.after.2 = if s.failed then s.before.2.countSearch.countFailedSearch
      else s.before.2.countSearch) :
    Counters.Balanced limit s.before.2 s.after.2 [s] := by
  have hpath : ∀ q, s.isOn q = false := by
    intro q
    rw [Served.isOn]
    cases hv : s.visit with
    | ingest path args headers chunks micros =>
      rw [hv] at hvisit
      cases hvisit
    | search kind request => rfl
  have hcounts : ∀ q, s.after.2.path q = s.before.2.path q := by
    intro q
    rw [hafter]
    split
    · rw [Counters.path_countFailedSearch, Counters.path_countSearch]
    · rw [Counters.path_countSearch]
  have hsearch : s.isSearch = true := hvisit
  constructor
  · simp [hpath, hcounts]
  · simp [hpath, hcounts]
  · simp [hpath, hcounts, storedOn]
  · simp [hpath, hcounts]
  · rw [hafter]
    split <;> simp [hsearch, Counters.countSearch, Counters.countFailedSearch]
  · rw [hafter]
    cases hfailed : s.failed <;>
      simp [hsearch, hfailed, Counters.countSearch, Counters.countFailedSearch]

theorem balanced_ingest {limit : Nat} {s : Served σ} {path : IngestPath} {skipped : Nat}
    (hvisit : ∀ q, s.isOn q = decide (q = path)) (hsearch : s.isSearch = false)
    (hafter : s.after.2 = s.before.2.update path (s.addTo limit skipped)) :
    Counters.Balanced limit s.before.2 s.after.2 [s] where
  requests q := by
    rw [hafter, Counters.path_update]
    by_cases hq : q = path <;> simp [hvisit, hq, Served.addTo]
  errors q := by
    rw [hafter, Counters.path_update]
    by_cases hq : q = path <;> simp [hvisit, hq, Served.addTo, List.countP_cons]
  rows q := by
    rw [hafter, Counters.path_update]
    by_cases hq : q = path <;> simp [hvisit, hq, Served.addTo, storedOn]
  micros q := by
    rw [hafter, Counters.path_update]
    by_cases hq : q = path <;> simp [hvisit, hq, Served.addTo]
  searches := by simp [hafter, Counters.searches_update, hsearch]
  failedSearches := by simp [hafter, Counters.failedSearches_update, hsearch]

theorem after_serve_search (now : Timestamp) (kind : SearchKind) (request : Http.Request)
    (state : σ × Counters) :
    (n.serve now (.search kind request) state).after.2
      = if (n.serve now (.search kind request) state).failed
        then state.2.countSearch.countFailedSearch else state.2.countSearch := by
  obtain ⟨response, world', hrun⟩ := n.run_answerSearch state.1 state.2 kind now request
  simp only [serve, Served.failed, answerVisit, hrun]
  cases response.isSuccess <;> rfl

/-- A request for rows is counted as it was answered, and if that is with success, all nodes took
    writes and its rows have been written. -/
theorem serve_ingest (now : Timestamp) (path : IngestPath) (args : Args) (headers : Http.Headers)
    (chunks : List Body.Chunk) (micros : Nat) (state : σ × Counters) :
    let visit := Visit.ingest path args headers chunks micros
    let s := n.serve now visit state
    (∃ skipped, s.after.2 = state.2.update path (s.addTo n.config.maxRequestSize skipped)) ∧
      (s.failed = false → visit.rows n.config.maxRequestSize now
          = .ok (s.stored n.config.maxRequestSize) ∧
        s.Wrote n.topology (s.stored n.config.maxRequestSize)) := by
  intro visit s
  rcases Ingestion.serve_cases n.topology path headers chunks now state.1 state.2 args
    n.config.maxRequestSize micros with
      ⟨e, world', skipped, hserve⟩ |
        ⟨rows, skipped, asked, world', hasked, hrows, hwritten, hserve⟩
  · have hs : s = ⟨now, visit, state, ingestResponse (.error e), (world',
        ((state.2.countRequest path).countSkipped path skipped).countError path)⟩ := by
      simp only [s, visit, serve, answerVisit, n.run_answerIngest state.1 state.2 hserve]
    have hfailed : s.failed = true := by
      rw [hs, Served.failed, isSuccess_ingestResponse]
      rfl
    have hstored : s.stored n.config.maxRequestSize = [] := by
      rw [Served.stored, hfailed]
      rfl
    refine ⟨⟨skipped, ?_⟩, fun h => by rw [hfailed] at h; cases h⟩
    unfold Served.addTo Served.micros
    rw [hfailed, hstored, hs]
    cases path <;> rfl
  · have hs : s = ⟨now, visit, state, ingestResponse (.ok rows.length), (world',
        (((state.2.countRequest path).countSkipped path skipped).countRows path
          rows.length).countMicros path micros)⟩ := by
      simp only [s, visit, serve, answerVisit, n.run_answerIngest state.1 state.2 hserve]
    have hfailed : s.failed = false := by
      rw [hs, Served.failed, isSuccess_ingestResponse]
      rfl
    have hstored : s.stored n.config.maxRequestSize = rows := by
      have hvisit : s.visit.rows n.config.maxRequestSize s.now = .ok rows := hrows
      rw [Served.stored, hfailed, hvisit]
      rfl
    refine ⟨⟨skipped, ?_⟩, fun _ => ?_⟩
    · unfold Served.addTo Served.micros
      rw [hfailed, hstored, hs]
      cases path <;> rfl
    · rw [hstored]
      refine ⟨hrows, asked, hasked, ?_⟩
      rw [hs]
      exact hwritten

/-- **One visit** is counted as it was answered. -/
theorem balanced_serve (now : Timestamp) (visit : Visit) (state : σ × Counters) :
    Counters.Balanced n.config.maxRequestSize state.2 (n.serve now visit state).after.2
      [n.serve now visit state] := by
  cases visit with
  | search kind request =>
    exact balanced_search (s := n.serve now (.search kind request) state) rfl
      (n.after_serve_search now kind request state)
  | ingest path args headers chunks micros =>
    obtain ⟨⟨skipped, hafter⟩, -⟩ := n.serve_ingest now path args headers chunks micros state
    exact balanced_ingest (s := n.serve now (.ingest path args headers chunks micros) state)
      (fun _ => rfl) rfl hafter

/-- **The counts balance with the requests that have been answered.** After any run of requests for
    rows on any paths and of searches, every path has counted each of its requests once, each that
    was answered with a failure once as failed and no other, and the rows of those that were
    answered with success, which are the rows of their bodies and have been written; and the
    searches and those that failed are counted alike. -/
theorem counts_balance (visits : List (Timestamp × Visit)) (state : σ × Counters) :
    let (trace, last) := n.serveAll visits state
    trace.map (fun s => (s.now, s.visit)) = visits ∧
      Counters.Balanced n.config.maxRequestSize state.2 last.2 trace ∧
      ∀ s ∈ trace, s.isSearch = false → s.failed = false →
        s.visit.rows n.config.maxRequestSize s.now = .ok (s.stored n.config.maxRequestSize) ∧
          s.Wrote n.topology (s.stored n.config.maxRequestSize) := by
  induction visits generalizing state with
  | nil => exact ⟨rfl, Counters.balanced_nil _ _, fun s hs => absurd hs List.not_mem_nil⟩
  | cons v rest ih =>
    obtain ⟨now, visit⟩ := v
    obtain ⟨hvisits, hbalanced, hwrote⟩ := ih (n.serve now visit state).after
    refine ⟨congrArg _ hvisits, (n.balanced_serve now visit state).append hbalanced, ?_⟩
    intro s hs hsearch hfailed
    rcases List.mem_cons.1 hs with rfl | hs
    · cases visit with
      | search kind request => cases hsearch
      | ingest path args headers chunks micros =>
        exact (n.serve_ingest now path args headers chunks micros state).2 hfailed
    · exact hwrote s hs hsearch hfailed

/-- A node with a store of its own that is empty. -/
def sampleNode : Node Storage :=
  ⟨{}, .single, some id⟩

/-- A row in the row codec. -/
def sampleInsert : Visit :=
  .ingest .native [("version", RowCodec.version)] [] [.data Ingestion.sampleBody] 250

/-- The row is sent, then in a version that nobody reads; a search is for nothing; and a request of
    another node breaks off. -/
def sampleVisits : List (Timestamp × Visit) :=
  [(7, sampleInsert), (8, .ingest .native [("version", "v0")] [] [.data Ingestion.sampleBody] 40),
    (9, .search .rows ⟨"GET", "/select/logsql/query", "", [], []⟩),
    (10, .ingest .forwarded [("version", RowCodec.version)] []
      [.data Ingestion.sampleBody, .failure "connection reset"] 90)]

theorem four_requests_counted :
    let (trace, _, counters) := sampleNode.serveAll sampleVisits (default, {})
    (counters.native.requests = 2 ∧ counters.native.errors = 1 ∧ counters.native.rows = 1) ∧
      (counters.forwarded.requests = 1 ∧ counters.forwarded.errors = 1 ∧
        counters.forwarded.rows = 0) ∧
      (counters.searches = 1 ∧ counters.failedSearches = 1) ∧
      ∃ s ∈ trace, s.Wrote .single [Ingestion.sampleJob.classifier.apply 7 Ingestion.sampleRow] := by
  obtain ⟨-, h, hwrote⟩ := sampleNode.counts_balance sampleVisits (default, {})
  refine ⟨⟨?_, ?_, ?_⟩, ⟨?_, ?_, ?_⟩, ⟨?_, ?_⟩, sampleNode.serve 7 sampleInsert (default, {}),
    List.mem_cons_self, ?_⟩
  · exact (h.requests .native).trans (by decide +kernel)
  · exact (h.errors .native).trans (by decide +kernel)
  · exact (h.rows .native).trans (by decide +kernel)
  · exact (h.requests .forwarded).trans (by decide +kernel)
  · exact (h.errors .forwarded).trans (by decide +kernel)
  · exact (h.rows .forwarded).trans (by decide +kernel)
  · exact h.searches.trans (by decide +kernel)
  · exact h.failedSearches.trans (by decide +kernel)
  · have hstored : (sampleNode.serve 7 sampleInsert (default, {})).stored
        sampleNode.config.maxRequestSize
          = [Ingestion.sampleJob.classifier.apply 7 Ingestion.sampleRow] := by
      decide +kernel
    rw [← hstored]
    exact (hwrote _ List.mem_cons_self rfl (by decide +kernel)).2

end Node

end Logbook
