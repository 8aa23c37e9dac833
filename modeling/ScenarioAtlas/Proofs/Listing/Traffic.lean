import Mathlib.Data.List.Induction
import ScenarioAtlas.Proofs.Listing.Cache

/-!
# Requests under way at the same time

A request for a list reads the clock, looks for what is kept, scans the files if that is not fresh
enough, and then stores what it has found or recalls what is kept. The cache is free between any two
of these turns, so turns of other requests, notices of files and movements of the clock may come in
between. Whatever the order, an entry is what some request for its pattern has stored, and every
answer is a list that a scan for the same pattern has returned, or the empty one.

Turns are whole: nothing is said about what happens inside of one.
-/

namespace ScenarioAtlas

set_option autoImplicit false

inductive CallStage where
  | begun
  /-- It has found nothing fresh, and its files are being scanned. -/
  | scanning
  | scanned (listing : Except ListingError (List String))
  /-- It was answered with what was kept. -/
  | hit (files : List String)
  /-- It was answered with what its own scan has returned, and has stored that. -/
  | stored (files : List String)
  /-- It was answered after its own scan had failed. -/
  | recalled (error : ListingError) (files : List String)
  deriving DecidableEq

structure Call where
  request : Cache.Request
  began : Nat
  stage : CallStage

inductive Turn where
  | lookUp
  | scan (listing : Except ListingError (List String))
  /-- It stores what its scan has returned, or recalls what is kept. -/
  | conclude

namespace Call

variable (settings : CacheSettings) (cache : Cache) (call : Call)

def answer? : Option (List String) :=
  match call.stage with
  | .hit files | .stored files | .recalled _ files => some files
  | .begun | .scanning | .scanned _ => none

def listing? : Option (Except ListingError (List String)) :=
  match call.stage with
  | .scanned listing => some listing
  | .stored files => some (.ok files)
  | .recalled error _ => some (.error error)
  | .begun | .scanning | .hit _ => none

/-- What a turn does to the cache and to the request; one that is not due does nothing. -/
def take (turn : Turn) : Cache × Call :=
  match call.stage, turn with
  | .begun, .lookUp =>
    match cache.lookup settings call.began call.request with
    | (looked, some files) => (looked, { call with stage := .hit files })
    | (looked, none) => (looked, { call with stage := .scanning })
  | .scanning, .scan listing => (cache, { call with stage := .scanned listing })
  | .scanned (.ok files), .conclude =>
    (cache.store settings call.began call.request.pattern files, { call with stage := .stored files })
  | .scanned (.error error), .conclude =>
    (cache, { call with stage := .recalled error (cache.lastKnown call.request.pattern) })
  | _, _ => (cache, call)

end Call

inductive Act where
  | setClock (now : Nat)
  | begin (request : Cache.Request)
  | turn (id : Nat) (turn : Turn)
  | invalidate (pattern : String)
  | fileChanged (path : String)
  | clear

def Act.drops : Act → Bool
  | .invalidate _ | .fileChanged _ | .clear => true
  | .setClock _ | .begin _ | .turn _ _ => false

/-- A cache in use, the clock, and all requests so far in the order in which they began. -/
structure Traffic where
  cache : Cache := {}
  now : Nat
  calls : List Call := []

namespace Traffic

variable (settings : CacheSettings) (traffic : Traffic)

def answer? (id : Nat) : Option (List String) := traffic.calls[id]?.bind Call.answer?

def advance (id : Nat) (turn : Turn) : Traffic :=
  match traffic.calls[id]? with
  | none => traffic
  | some call =>
    let taken := call.take settings traffic.cache turn
    { traffic with cache := taken.1, calls := traffic.calls.set id taken.2 }

def step : Act → Traffic
  | .setClock now => { traffic with now }
  | .begin request => { traffic with calls := traffic.calls ++ [⟨request, traffic.now, .begun⟩] }
  | .turn id turn => traffic.advance settings id turn
  | .invalidate pattern => { traffic with cache := (traffic.cache.invalidate pattern).1 }
  | .fileChanged path => { traffic with cache := (traffic.cache.invalidateMatching path).1 }
  | .clear => { traffic with cache := traffic.cache.clear }

def run (now : Nat) (acts : List Act) : Traffic := acts.foldl (step settings) { now }

/-- The turns that take a request to its answer, with what its scan returns if there is one. -/
def turnsOf (id : Nat) (listing : Except ListingError (List String)) : List Act :=
  [.turn id .lookUp, .turn id (.scan listing), .turn id .conclude]

/-- Whether a request for the pattern of an entry has stored it: the request began when the clock
read the time of the entry, and its own scan has returned the files. -/
def Stored (entry : String × CacheEntry) : Prop :=
  ∃ (id : Nat) (call : Call), traffic.calls[id]? = some call ∧ call.request.pattern = entry.1 ∧
    call.began = entry.2.timestamp ∧ call.stage = .stored entry.2.files

/-- What the files are that a request is answered with by its next turn. -/
inductive Answers (call : Call) : List String → Prop where
  | found {files : List String} : call.stage = .scanned (.ok files) → Answers call files
  | fresh {entry : CacheEntry} : call.stage = .begun → call.request.force = false →
    traffic.cache.peek? call.request.pattern = some entry →
    call.began - entry.timestamp < call.request.maxAge.getD settings.timeToLive →
    traffic.Stored (call.request.pattern, entry) → Answers call entry.files
  | recalled {error : ListingError} {entry : CacheEntry} : call.stage = .scanned (.error error) →
    traffic.cache.peek? call.request.pattern = some entry →
    traffic.Stored (call.request.pattern, entry) → Answers call entry.files
  | nothing {error : ListingError} : call.stage = .scanned (.error error) →
    traffic.cache.peek? call.request.pattern = none → Answers call []

end Traffic

namespace Call

variable {settings : CacheSettings} {cache : Cache} {call : Call}

inductive Turned (settings : CacheSettings) (cache : Cache) (call : Call) :
    Turn → Cache → Call → Prop where
  | notDue (turn : Turn) : Turned settings cache call turn cache call
  | hit {entry : CacheEntry} : call.stage = .begun →
    cache.fresh? settings call.began call.request = some entry →
    Turned settings cache call .lookUp { cache with hits := cache.hits + 1 }
      { call with stage := .hit entry.files }
  | missed : call.stage = .begun → cache.fresh? settings call.began call.request = none →
    Turned settings cache call .lookUp { cache with misses := cache.misses + 1 }
      { call with stage := .scanning }
  | scanned (listing : Except ListingError (List String)) : call.stage = .scanning →
    Turned settings cache call (.scan listing) cache { call with stage := .scanned listing }
  | stored {files : List String} : call.stage = .scanned (.ok files) →
    Turned settings cache call .conclude
      (cache.store settings call.began call.request.pattern files)
      { call with stage := .stored files }
  | recalled {error : ListingError} : call.stage = .scanned (.error error) →
    Turned settings cache call .conclude cache
      { call with stage := .recalled error (cache.lastKnown call.request.pattern) }

theorem turned_take (settings : CacheSettings) (cache : Cache) (call : Call) (turn : Turn) :
    Turned settings cache call turn (call.take settings cache turn).1
      (call.take settings cache turn).2 := by
  obtain ⟨request, began, stage⟩ := call
  cases stage with
  | begun =>
    cases turn with
    | lookUp =>
      cases hfresh : cache.fresh? settings began request with
      | some entry => simpa [take, Cache.lookup, hfresh] using Turned.hit rfl hfresh
      | none => simpa [take, Cache.lookup, hfresh] using Turned.missed rfl hfresh
    | scan _ | conclude => exact .notDue _
  | scanning =>
    cases turn with
    | scan listing => exact .scanned listing rfl
    | lookUp | conclude => exact .notDue _
  | scanned listing =>
    cases turn with
    | conclude =>
      cases listing with
      | ok files => exact .stored rfl
      | error error => exact .recalled rfl
    | lookUp | scan _ => cases listing <;> exact .notDue _
  | hit _ | stored _ | recalled _ _ => exact .notDue _

/-- A look-up, a scan and a conclusion answer any request, whatever the cache holds at each. -/
theorem exists_answer (settings : CacheSettings) (call : Call) (atLookUp atScan atEnd : Cache)
    (listing : Except ListingError (List String)) :
    ∃ files, (((call.take settings atLookUp .lookUp).2.take settings atScan (.scan listing)).2.take
      settings atEnd .conclude).2.answer? = some files := by
  obtain ⟨request, began, stage⟩ := call
  cases stage with
  | begun =>
    cases hfresh : atLookUp.fresh? settings began request with
    | some entry => exact ⟨entry.files, by simp [take, Cache.lookup, hfresh, answer?]⟩
    | none => cases listing <;> simp [take, Cache.lookup, hfresh, answer?]
  | scanning => cases listing <;> exact ⟨_, rfl⟩
  | scanned returned => cases returned <;> exact ⟨_, rfl⟩
  | hit _ | stored _ | recalled _ _ => exact ⟨_, rfl⟩

theorem take_of_answer? {files : List String} (h : call.answer? = some files) (turn : Turn) :
    call.take settings cache turn = (cache, call) := by
  obtain ⟨request, began, stage⟩ := call
  cases stage with
  | begun | scanning | scanned _ => cases h
  | hit _ | stored _ | recalled _ _ => rfl

end Call

namespace Traffic

variable {settings : CacheSettings} {traffic : Traffic} {id : Nat} {call : Call}

theorem advance_of_some (h : traffic.calls[id]? = some call) (turn : Turn) :
    traffic.advance settings id turn =
      { traffic with
        cache := (call.take settings traffic.cache turn).1
        calls := traffic.calls.set id (call.take settings traffic.cache turn).2 } := by
  simp only [advance, h]

theorem advance_of_none (h : traffic.calls[id]? = none) (turn : Turn) :
    traffic.advance settings id turn = traffic := by
  simp only [advance, h]

theorem calls_advance_of_ne {other : Nat} (hne : id ≠ other) (turn : Turn) :
    (traffic.advance settings id turn).calls[other]? = traffic.calls[other]? := by
  cases h : traffic.calls[id]? with
  | none => rw [advance_of_none h]
  | some call => rw [advance_of_some h, List.getElem?_set_ne hne]

theorem calls_advance (settings : CacheSettings) (h : traffic.calls[id]? = some call)
    (turn : Turn) :
    (traffic.advance settings id turn).calls[id]? =
      some (call.take settings traffic.cache turn).2 := by
  obtain ⟨hlength, -⟩ := List.getElem?_eq_some_iff.mp h
  rw [advance_of_some h, List.getElem?_set_self hlength]

theorem exists_turned (settings : CacheSettings) (h : traffic.calls[id]? = some call)
    (turn : Turn) :
    ∃ cache next, call.Turned settings traffic.cache turn cache next ∧
      (traffic.advance settings id turn).cache = cache ∧
      (traffic.advance settings id turn).calls[id]? = some next :=
  ⟨_, _, call.turned_take settings traffic.cache turn, by rw [advance_of_some h],
    calls_advance settings h turn⟩

theorem calls_step_of_answer? {files : List String} (h : traffic.calls[id]? = some call)
    (hanswer : call.answer? = some files) (act : Act) :
    (traffic.step settings act).calls[id]? = some call := by
  cases act with
  | setClock _ | invalidate _ | fileChanged _ | clear => exact h
  | begin request =>
    obtain ⟨hlength, -⟩ := List.getElem?_eq_some_iff.mp h
    exact (List.getElem?_append_left hlength).trans h
  | turn other turn =>
    by_cases heq : other = id
    · subst heq
      rw [step, calls_advance settings h, Call.take_of_answer? hanswer]
    · rw [step, calls_advance_of_ne heq, h]

theorem answer?_begin (settings : CacheSettings) (traffic : Traffic) (request : Cache.Request)
    (id : Nat) : (traffic.step settings (.begin request)).answer? id = traffic.answer? id := by
  rw [answer?, answer?, step, List.getElem?_append]
  split
  case isTrue => rfl
  case isFalse hlength =>
    rw [List.getElem?_eq_none (Nat.le_of_not_lt hlength)]
    cases id - traffic.calls.length <;> rfl

theorem exists_answer (settings : CacheSettings) (h : traffic.calls[id]? = some call)
    (listing : Except ListingError (List String)) :
    ∃ files, ((turnsOf id listing).foldl (step settings) traffic).answer? id = some files := by
  have hlooked := calls_advance settings h .lookUp
  have hscanned := calls_advance settings hlooked (.scan listing)
  have hconcluded := calls_advance settings hscanned .conclude
  obtain ⟨files, hfiles⟩ := call.exists_answer settings _ _ _ listing
  exact ⟨files, Option.bind_eq_some_iff.mpr ⟨_, hconcluded, hfiles⟩⟩

theorem calls_step {act : Act} (h : (traffic.step settings act).calls[id]? = some call) :
    (∃ earlier, traffic.calls[id]? = some earlier ∧ call.request = earlier.request ∧
      call.began = earlier.began ∧ ∀ listing, call.listing? = some listing →
        earlier.listing? = some listing ∨ act = .turn id (.scan listing)) ∨
    (act = .begin call.request ∧ traffic.calls.length = id ∧ traffic.now = call.began ∧
      call.listing? = none) := by
  have hsame (hcalls : (traffic.step settings act).calls[id]? = traffic.calls[id]?) :
      ∃ earlier, traffic.calls[id]? = some earlier ∧ call.request = earlier.request ∧
        call.began = earlier.began ∧ ∀ listing, call.listing? = some listing →
          earlier.listing? = some listing ∨ act = .turn id (.scan listing) :=
    ⟨call, hcalls.symm.trans h, rfl, rfl, fun _ => Or.inl⟩
  cases act with
  | setClock _ | invalidate _ | fileChanged _ | clear => exact Or.inl (hsame rfl)
  | begin request =>
    rcases Nat.lt_or_ge id traffic.calls.length with hlt | hge
    · exact Or.inl (hsame (List.getElem?_append_left hlt))
    · right
      rw [step, List.getElem?_append_right hge] at h
      obtain ⟨hlength, hnew⟩ := List.getElem?_eq_some_iff.mp h
      rw [List.getElem_singleton] at hnew
      subst hnew
      rw [List.length_singleton] at hlength
      exact ⟨rfl, by omega, rfl, rfl⟩
  | turn other turn =>
    left
    by_cases heq : other = id
    · subst heq
      cases hcall : traffic.calls[other]? with
      | none =>
        rw [step, advance_of_none hcall, hcall] at h
        cases h
      | some earlier =>
        obtain ⟨_, next, hturned, -, hnext⟩ := exists_turned settings hcall turn
        rw [step, hnext] at h
        cases h
        refine ⟨earlier, rfl, ?_⟩
        cases hturned with
        | notDue => exact ⟨rfl, rfl, fun _ => Or.inl⟩
        | hit _ _ | missed _ _ => exact ⟨rfl, rfl, nofun⟩
        | scanned listing _ =>
          refine ⟨rfl, rfl, ?_⟩
          rintro _ ⟨⟩
          exact Or.inr rfl
        | stored hstage | recalled hstage =>
          refine ⟨rfl, rfl, ?_⟩
          rintro _ ⟨⟩
          left
          rw [Call.listing?, hstage]
    · exact hsame (calls_advance_of_ne heq turn)

theorem Stored.step {entry : String × CacheEntry} (h : traffic.Stored entry) (act : Act) :
    (traffic.step settings act).Stored entry := by
  obtain ⟨id, call, hcall, hpattern, hbegan, hstage⟩ := h
  have hanswer : call.answer? = some entry.2.files := by rw [Call.answer?, hstage]
  exact ⟨id, call, calls_step_of_answer? hcall hanswer act, hpattern, hbegan, hstage⟩

/-- Entries change in two ways only: some are taken away, or a request stores what its own scan has
returned. -/
theorem step_entries (settings : CacheSettings) (traffic : Traffic) (act : Act) :
    (traffic.step settings act).cache.entries = traffic.cache.entries ∨
      (act.drops = true ∧
        (traffic.step settings act).cache.entries.Sublist traffic.cache.entries) ∨
      ∃ (id : Nat) (call : Call) (files : List String), act = .turn id .conclude ∧
        traffic.calls[id]? = some call ∧ call.stage = .scanned (.ok files) ∧
        (traffic.step settings act).calls[id]? = some { call with stage := .stored files } ∧
        (traffic.step settings act).cache =
          traffic.cache.store settings call.began call.request.pattern files := by
  cases act with
  | setClock _ | begin _ => exact Or.inl rfl
  | invalidate _ | fileChanged _ =>
    exact Or.inr (Or.inl ⟨rfl, List.filter_sublist⟩)
  | clear => exact Or.inr (Or.inl ⟨rfl, List.nil_sublist _⟩)
  | turn id turn =>
    rw [step]
    cases hcall : traffic.calls[id]? with
    | none =>
      rw [advance_of_none hcall]
      exact Or.inl rfl
    | some call =>
      obtain ⟨cache, next, hturned, hcache, hnext⟩ := exists_turned settings hcall turn
      cases hturned with
      | notDue | hit _ _ | missed _ _ | scanned _ _ | recalled _ =>
        rw [hcache]
        exact Or.inl rfl
      | stored hstage =>
        exact Or.inr (Or.inr ⟨id, call, _, rfl, hcall, hstage, hnext, hcache⟩)

/-- The entries are no more than the cache keeps, and each of them is accounted for by a request. -/
structure Accounted (settings : CacheSettings) (traffic : Traffic) : Prop where
  length_le : traffic.cache.entries.length ≤ settings.maxEntries
  stored : ∀ entry ∈ traffic.cache.entries, traffic.Stored entry

theorem Accounted.step (h : traffic.Accounted settings) (act : Act) :
    (traffic.step settings act).Accounted settings := by
  rcases step_entries settings traffic act with
    hsame | ⟨-, hsublist⟩ | ⟨id, call, files, -, -, -, hcall, hcache⟩
  · constructor
    · rw [hsame]
      exact h.length_le
    · intro entry hentry
      rw [hsame] at hentry
      exact (h.stored entry hentry).step act
  · constructor
    · exact Nat.le_trans hsublist.length_le h.length_le
    · intro entry hentry
      exact (h.stored entry (hsublist.subset hentry)).step act
  · constructor
    · rw [hcache]
      exact Cache.length_retained_le _
    · intro entry hentry
      rw [hcache] at hentry
      rcases Cache.mem_entries_of_store hentry with rfl | hkept
      · exact ⟨id, _, hcall, rfl, rfl, rfl⟩
      · exact (h.stored entry hkept).step act

theorem accounted_run (settings : CacheSettings) (now : Nat) (acts : List Act) :
    (run settings now acts).Accounted settings := by
  induction acts using List.reverseRecOn with
  | nil => exact ⟨Nat.zero_le _, nofun⟩
  | append_singleton acts act ih =>
    rw [run, List.foldl_append]
    exact ih.step act

theorem Accounted.stored_of_peek? (h : traffic.Accounted settings) {pattern : String}
    {entry : CacheEntry} (hpeek : traffic.cache.peek? pattern = some entry) :
    traffic.Stored (pattern, entry) :=
  h.stored _ (Cache.mem_entries_of_peek? hpeek)

/-- A request gets its answer in a turn of its own, and the files are accounted for. -/
theorem Accounted.answers (h : traffic.Accounted settings) {act : Act} {files : List String}
    (hnone : traffic.answer? id = none)
    (hsome : (traffic.step settings act).answer? id = some files) :
    ∃ call, traffic.calls[id]? = some call ∧ traffic.Answers settings call files := by
  cases act with
  | setClock _ | invalidate _ | fileChanged _ | clear =>
    cases hnone.symm.trans hsome
  | begin request =>
    rw [answer?_begin] at hsome
    cases hnone.symm.trans hsome
  | turn other turn =>
    rw [Traffic.step] at hsome
    by_cases heq : other = id
    · subst heq
      cases hcall : traffic.calls[other]? with
      | none =>
        rw [advance_of_none hcall] at hsome
        cases hnone.symm.trans hsome
      | some call =>
        refine ⟨call, rfl, ?_⟩
        obtain ⟨cache, next, hturned, -, hnext⟩ := exists_turned settings hcall turn
        have hanswer : next.answer? = some files := by
          rw [answer?, hnext] at hsome
          exact hsome
        cases hturned with
        | notDue =>
          rw [answer?, hcall] at hnone
          cases hnone.symm.trans hanswer
        | hit hstage hfresh =>
          obtain ⟨hforce, hpeek, hage⟩ := Cache.fresh?_eq_some_iff.mp hfresh
          cases hanswer
          exact .fresh hstage hforce hpeek hage (h.stored_of_peek? hpeek)
        | missed _ _ | scanned _ _ => cases hanswer
        | stored hstage =>
          cases hanswer
          exact .found hstage
        | recalled hstage =>
          cases hanswer
          cases hpeek : traffic.cache.peek? call.request.pattern with
          | none => simpa [Cache.lastKnown, hpeek] using Answers.nothing hstage hpeek
          | some entry =>
            simpa [Cache.lastKnown, hpeek] using
              Answers.recalled hstage hpeek (h.stored_of_peek? hpeek)
    · rw [answer?, calls_advance_of_ne heq, ← answer?] at hsome
      cases hnone.symm.trans hsome

/-- Every request has begun at some act, when the clock read what it has noted, and what its own scan
has returned came from a turn of its own after that. -/
theorem history_run (settings : CacheSettings) (now : Nat) (acts : List Act)
    (h : (run settings now acts).calls[id]? = some call) :
    ∃ before after, acts = before ++ .begin call.request :: after ∧
      (run settings now before).calls.length = id ∧ (run settings now before).now = call.began ∧
      ∀ listing, call.listing? = some listing → .turn id (.scan listing) ∈ after := by
  induction acts using List.reverseRecOn generalizing call with
  | nil => cases h
  | append_singleton acts act ih =>
    rw [run, List.foldl_append] at h
    rcases calls_step h with ⟨earlier, hearlier, hrequest, hbegan, hscan⟩ | ⟨hact, hid, hnow, hnone⟩
    · obtain ⟨before, after, hacts, hlength, hnow, hlisting⟩ := ih hearlier
      refine ⟨before, after ++ [act], ?_, hlength, hnow.trans hbegan.symm, ?_⟩
      · rw [hacts, hrequest, List.append_assoc, List.cons_append]
      · intro listing hsome
        rcases hscan listing hsome with hbefore | rfl
        · exact List.mem_append_left _ (hlisting listing hbefore)
        · exact List.mem_append_right _ List.mem_cons_self
    · refine ⟨acts, [], by rw [hact], hid, hnow, ?_⟩
      intro listing hsome
      cases hnone.symm.trans hsome

theorem advance_concat (settings : CacheSettings) (cache : Cache) (now : Nat) (calls : List Call)
    (call : Call) (turn : Turn) :
    advance settings ⟨cache, now, calls ++ [call]⟩ calls.length turn =
      ⟨(call.take settings cache turn).1, now, calls ++ [(call.take settings cache turn).2]⟩ := by
  simp [advance]

/-- With no other acts in between, a request does to the cache what asking the cache at once does,
and gets the same answer. -/
theorem discover_eq_turns (settings : CacheSettings) (cache : Cache) (now : Nat)
    (calls : List Call) (request : Cache.Request)
    (scan : String → Except ListingError (List String)) :
    let acts := .begin request :: turnsOf calls.length (scan request.pattern)
    let done := acts.foldl (step settings) ⟨cache, now, calls⟩
    done.cache = (cache.discover settings now request scan).1 ∧
      done.answer? calls.length = some (cache.discover settings now request scan).2 := by
  simp only [turnsOf, List.foldl_cons, List.foldl_nil, step, advance_concat, answer?,
    List.getElem?_concat_length, Option.bind_some]
  cases hfresh : cache.fresh? settings now request with
  | some entry => simp [Call.take, Call.answer?, Cache.discover, Cache.lookup, hfresh]
  | none =>
    cases hscan : scan request.pattern <;>
      simp [Call.take, Call.answer?, Cache.discover, Cache.lookup, hfresh, hscan]

/-- Whatever the order of acts, the entries are within bounds and stored by requests for their own
patterns, every request can be taken to its answer, and an answer, once given, stays; it is what the
request's own scan has returned, or what some request for the same pattern had stored before, or
nothing at all. Entries change by notices and by requests whose own scan has returned a list, so not
by a failed scan. -/
theorem run_accounts_for_answers (settings : CacheSettings) (now : Nat) (acts : List Act) :
    let traffic := run settings now acts
    traffic.cache.entries.length ≤ settings.maxEntries ∧
      (∀ entry ∈ traffic.cache.entries, traffic.Stored entry) ∧
      (∀ id call, traffic.calls[id]? = some call →
        (∃ before after, acts = before ++ .begin call.request :: after ∧
          (run settings now before).calls.length = id ∧
          (run settings now before).now = call.began ∧
          ∀ listing, call.listing? = some listing → .turn id (.scan listing) ∈ after) ∧
        ∀ listing, ∃ files,
          ((turnsOf id listing).foldl (step settings) traffic).answer? id = some files) ∧
      ∀ act,
        (∀ id files, traffic.answer? id = some files →
          (traffic.step settings act).answer? id = some files) ∧
        (∀ id files, traffic.answer? id = none →
          (traffic.step settings act).answer? id = some files →
          ∃ call, traffic.calls[id]? = some call ∧ traffic.Answers settings call files) ∧
        ((traffic.step settings act).cache.entries = traffic.cache.entries ∨
          (act.drops = true ∧
            (traffic.step settings act).cache.entries.Sublist traffic.cache.entries) ∨
          ∃ (id : Nat) (call : Call) (files : List String), act = .turn id .conclude ∧
            traffic.calls[id]? = some call ∧ call.stage = .scanned (.ok files)) := by
  intro traffic
  have haccounted := accounted_run settings now acts
  refine ⟨haccounted.length_le, haccounted.stored, ?_, ?_⟩
  · intro id call hcall
    exact ⟨history_run settings now acts hcall, exists_answer settings hcall⟩
  · intro act
    refine ⟨?_, fun id files => haccounted.answers, ?_⟩
    · intro id files hanswer
      obtain ⟨call, hcall, hfiles⟩ := Option.bind_eq_some_iff.mp hanswer
      exact Option.bind_eq_some_iff.mpr ⟨call, calls_step_of_answer? hcall hfiles act, hfiles⟩
    · exact (step_entries settings traffic act).imp_right (Or.imp_right
        fun ⟨id, call, files, hact, hcall, hstage, _⟩ => ⟨id, call, files, hact, hcall, hstage⟩)

theorem run_accounts_for_answers_with_clock_set_back :
    let acts : List Act := [.setClock 1000, .begin { pattern := "*" },
      .begin { pattern := "*", force := true }, .turn 0 .lookUp, .turn 1 .lookUp,
      .turn 0 (.scan (.ok ["a.feature"])), .setClock 400, .begin { pattern := "*" },
      .turn 1 (.scan (.error (.failed "gone"))), .turn 0 .conclude]
    let traffic := run {} 0 acts
    (∃ call, traffic.calls[1]? = some call ∧ traffic.Answers {} call ["a.feature"]) ∧
      ∃ call, traffic.calls[2]? = some call ∧ traffic.Answers {} call ["a.feature"] := by
  intro acts traffic
  obtain ⟨-, -, -, hacts⟩ := run_accounts_for_answers {} 0 acts
  constructor
  · exact (hacts (.turn 1 .conclude)).2.1 1 ["a.feature"] (by decide +kernel) (by decide +kernel)
  · exact (hacts (.turn 2 .lookUp)).2.1 2 ["a.feature"] (by decide +kernel) (by decide +kernel)

end Traffic

end ScenarioAtlas
