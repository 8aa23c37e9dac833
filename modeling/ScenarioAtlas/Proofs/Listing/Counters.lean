import ScenarioAtlas.Proofs.Listing.Notices
import ScenarioAtlas.Proofs.Listing.Retention

/-!
# The counters of the cache

Every look-up is a hit or a miss, every miss is followed by a scan, and an entry that came into the
cache is there, was evicted or was taken away. The acts of a run are counted one by one, each in the
state that it finds, and the counters of the cache agree with that count after any of them.
-/

namespace ScenarioAtlas

set_option autoImplicit false

/-- What acts come to: the look-ups, the scans, the lists that were stored for a pattern without an
entry, and the entries that were taken away other than by eviction. -/
structure Tally where
  lookUps : Nat := 0
  scans : Nat := 0
  newEntries : Nat := 0
  removed : Nat := 0

def Tally.add (a b : Tally) : Tally :=
  { lookUps := a.lookUps + b.lookUps
    scans := a.scans + b.scans
    newEntries := a.newEntries + b.newEntries
    removed := a.removed + b.removed }

namespace Call

def isScanning (call : Call) : Bool := call.stage = .scanning

def tally (cache : Cache) (call : Call) (turn : Turn) : Tally :=
  match call.stage, turn with
  | .begun, .lookUp => { lookUps := 1 }
  | .scanning, .scan _ => { scans := 1 }
  | .scanned (.ok _), .conclude =>
    { newEntries := if (cache.peek? call.request.pattern).isSome then 0 else 1 }
  | _, _ => {}

end Call

namespace Traffic

/-- What an act comes to in a state; what is taken away is as many entries as the caller is told,
where that is told. -/
def tally (traffic : Traffic) : Act → Tally
  | .turn id turn => ((traffic.calls[id]?).map (·.tally traffic.cache turn)).getD {}
  | .invalidate pattern => { removed := if (traffic.cache.invalidate pattern).2 then 1 else 0 }
  | .fileChanged path => { removed := (traffic.cache.invalidateMatching path).2 }
  | .clear => { removed := traffic.cache.entries.length }
  | .setClock _ | .begin _ => {}

/-- What a sequence of acts comes to from a state on, added to what was counted before. -/
def tallyFrom (settings : CacheSettings) (before : Tally) (traffic : Traffic) : List Act → Tally
  | [] => before
  | act :: acts =>
    tallyFrom settings (before.add (traffic.tally act)) (traffic.step settings act) acts

end Traffic

namespace Cache

variable {settings : CacheSettings} {cache : Cache}

theorem length_invalidate (h : AreDistinct cache.entries) (pattern : String) :
    (cache.invalidate pattern).1.entries.length +
      (if (cache.peek? pattern).isSome then 1 else 0) = cache.entries.length := by
  have hone : cache.entries.countP (·.1 = pattern) =
      if (cache.peek? pattern).isSome then 1 else 0 := by
    have hcount : (cache.entries.map Prod.fst).count pattern =
        cache.entries.countP (·.1 = pattern) := by
      rw [List.count, List.countP_map]
      rfl
    have hsome : (cache.peek? pattern).isSome = true ↔ pattern ∈ cache.entries.map Prod.fst := by
      simp [peek?]
    rw [← hcount, h.count]
    simp only [hsome]
  have hsplit := List.length_eq_countP_add_countP (fun entry : String × CacheEntry =>
    entry.1 = pattern) (l := cache.entries)
  have hrest : (cache.invalidate pattern).1.entries.length =
      cache.entries.countP fun entry => ¬ decide (entry.1 = pattern) = true := by
    rw [List.countP_eq_length_filter, invalidate]
    simp
  omega

/-- What is stored makes for one entry more where there was none for its pattern, whether evicted at
once or not. -/
theorem length_store (h : AreDistinct cache.entries) (settings : CacheSettings) (now : Nat)
    (pattern : String) (files : List String) :
    (cache.store settings now pattern files).entries.length +
        (cache.store settings now pattern files).evictions =
      cache.entries.length + cache.evictions + (if (cache.peek? pattern).isSome then 0 else 1) := by
  let written := setEntry pattern ⟨now, files⟩ cache.entries
  have hwritten : written.length = (cache.invalidate pattern).1.entries.length + 1 :=
    (setEntry_perm h).length_eq
  have hbefore := length_invalidate h pattern
  have hkept : (retained settings now written).length ≤ written.length :=
    (List.filter_sublist.trans List.filter_sublist).length_le
  have hentries : (cache.store settings now pattern files).entries =
      retained settings now written := rfl
  have hevictions : (cache.store settings now pattern files).evictions =
      cache.evictions + (written.length - (retained settings now written).length) := rfl
  rw [hentries, hevictions]
  cases hsome : (cache.peek? pattern).isSome with
  | true =>
    rw [hsome, if_pos rfl] at hbefore
    rw [if_pos rfl]
    omega
  | false =>
    rw [hsome, if_neg Bool.false_ne_true] at hbefore
    rw [if_neg Bool.false_ne_true]
    omega

end Cache

namespace Call

variable {cache : Cache}

/-- What a turn changes in the counters is what it comes to, with the scans that are still to be made
as misses of their own. -/
theorem take_tally (h : Cache.AreDistinct cache.entries) (settings : CacheSettings) (call : Call)
    (turn : Turn) :
    let taken := call.take settings cache turn
    let tally := call.tally cache turn
    taken.1.hits + taken.1.misses = cache.hits + cache.misses + tally.lookUps ∧
      taken.1.misses + call.isScanning.toNat =
        cache.misses + taken.2.isScanning.toNat + tally.scans ∧
      taken.1.entries.length + taken.1.evictions =
        cache.entries.length + cache.evictions + tally.newEntries ∧
      tally.removed = 0 := by
  obtain ⟨request, began, stage⟩ := call
  cases stage with
  | begun =>
    cases turn with
    | lookUp =>
      cases hfresh : cache.fresh? settings began request with
      | some entry => simp [take, tally, isScanning, Cache.lookup, hfresh, Nat.add_right_comm]
      | none => simp [take, tally, isScanning, Cache.lookup, hfresh, Nat.add_assoc]
    | scan _ | conclude => exact ⟨rfl, rfl, rfl, rfl⟩
  | scanning =>
    cases turn with
    | scan listing => exact ⟨rfl, rfl, rfl, rfl⟩
    | lookUp | conclude => exact ⟨rfl, rfl, rfl, rfl⟩
  | scanned listing =>
    cases turn with
    | conclude =>
      cases listing with
      | ok files => exact ⟨rfl, rfl, Cache.length_store h settings began request.pattern files, rfl⟩
      | error error => exact ⟨rfl, rfl, rfl, rfl⟩
    | lookUp | scan _ => cases listing <;> exact ⟨rfl, rfl, rfl, rfl⟩
  | hit _ | stored _ | recalled _ _ => exact ⟨rfl, rfl, rfl, rfl⟩

end Call

theorem countP_set_add {α : Type} (p : α → Bool) {l : List α} {i : Nat} {a : α} (h : l[i]? = some a)
    (b : α) : (l.set i b).countP p + (p a).toNat = l.countP p + (p b).toNat := by
  obtain ⟨hlt, rfl⟩ := List.getElem?_eq_some_iff.mp h
  have hsplit : l = l.take i ++ l[i] :: l.drop (i + 1) := by
    rw [List.getElem_cons_drop, List.take_append_drop]
  rw [List.set_eq_take_append_cons_drop, if_pos hlt]
  conv_rhs => rw [hsplit]
  simp only [List.countP_append, List.countP_cons]
  cases p l[i] <;> cases p b <;> simp <;> omega

namespace Traffic

open Cache

/-- Whether the counters of the cache agree with what was counted from the start on. -/
structure Balanced (tally : Tally) (traffic : Traffic) : Prop where
  distinct : AreDistinct traffic.cache.entries
  lookUps : traffic.cache.hits + traffic.cache.misses = tally.lookUps
  scans : traffic.cache.misses = tally.scans + traffic.calls.countP Call.isScanning
  entries : traffic.cache.entries.length + traffic.cache.evictions + tally.removed = tally.newEntries

variable {settings : CacheSettings} {traffic : Traffic} {tally : Tally}

theorem Balanced.step (h : Balanced tally traffic) (settings : CacheSettings) (act : Act) :
    Balanced (tally.add (traffic.tally act)) (traffic.step settings act) := by
  have hdistinct : AreDistinct (traffic.step settings act).cache.entries :=
    distinct_step h.distinct act
  have hentries := h.entries
  cases act with
  | setClock _ => exact ⟨hdistinct, h.lookUps, h.scans, h.entries⟩
  | begin request =>
    refine ⟨hdistinct, h.lookUps, ?_, h.entries⟩
    rw [Traffic.step, List.countP_append]
    exact h.scans
  | turn id turn =>
    cases hcall : traffic.calls[id]? with
    | none =>
      have htally : traffic.tally (.turn id turn) = {} := by simp [Traffic.tally, hcall]
      rw [Traffic.step, advance_of_none hcall, htally]
      exact h
    | some call =>
      have htally : traffic.tally (.turn id turn) = call.tally traffic.cache turn := by
        simp [Traffic.tally, hcall]
      obtain ⟨hlookUps, hscans, hlength, hremoved⟩ := call.take_tally h.distinct settings turn
      have hcount := countP_set_add Call.isScanning hcall
        (call.take settings traffic.cache turn).2
      have hbefore := h.lookUps
      have hmisses := h.scans
      rw [htally]
      refine ⟨hdistinct, ?_, ?_, ?_⟩
      all_goals
        simp only [Traffic.step, advance_of_some hcall, Tally.add]
        omega
  | invalidate pattern =>
    refine ⟨hdistinct, h.lookUps, h.scans, ?_⟩
    have hlength := length_invalidate h.distinct pattern
    have hremoved : (traffic.tally (.invalidate pattern)).removed =
        if (traffic.cache.peek? pattern).isSome then 1 else 0 := rfl
    have hevictions : (traffic.cache.invalidate pattern).1.evictions = traffic.cache.evictions := rfl
    simp only [Traffic.step, Tally.add, hremoved, hevictions]
    have hnewEntries : (traffic.tally (.invalidate pattern)).newEntries = 0 := rfl
    omega
  | fileChanged path =>
    refine ⟨hdistinct, h.lookUps, h.scans, ?_⟩
    have hlength := length_invalidateMatching traffic.cache path
    simp only [Traffic.step, Traffic.tally, Tally.add, Cache.invalidateMatching] at hlength ⊢
    omega
  | clear =>
    refine ⟨hdistinct, h.lookUps, h.scans, ?_⟩
    simp only [Traffic.step, Traffic.tally, Tally.add, Cache.clear, List.length_nil]
    omega

theorem Balanced.run (h : Balanced tally traffic) (settings : CacheSettings) (acts : List Act) :
    Balanced (tallyFrom settings tally traffic acts) (acts.foldl (Traffic.step settings) traffic) := by
  induction acts generalizing tally traffic with
  | nil => exact h
  | cons act acts ih => exact ih (h.step settings act)

/-- After whatever acts of any number of requests and notices, the counters add up: the hits and
misses to the look-ups, the misses to the scans that were made or are still due, and the entries with
the evictions and what was taken away to the lists that were stored for a pattern without an entry.
No pattern has two entries. -/
theorem stats_run (settings : CacheSettings) (start : Nat) (acts : List Act) :
    let traffic := run settings start acts
    let stats := traffic.cache.stats
    let tally := tallyFrom settings {} { now := start } acts
    stats.hits + stats.misses = tally.lookUps ∧
      stats.misses = tally.scans + traffic.calls.countP Call.isScanning ∧
      stats.entries + stats.evictions + tally.removed = tally.newEntries ∧
      stats.entries = traffic.cache.entries.length ∧
      AreDistinct traffic.cache.entries := by
  intro traffic stats tally
  have hempty : Balanced {} { now := start } := ⟨List.nodup_nil, rfl, rfl, rfl⟩
  have hbalanced := hempty.run settings acts
  exact ⟨hbalanced.lookUps, hbalanced.scans, hbalanced.entries, rfl, hbalanced.distinct⟩

end Traffic

end ScenarioAtlas
