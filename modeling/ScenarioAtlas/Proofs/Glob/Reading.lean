import ScenarioAtlas.Path
import ScenarioAtlas.Proofs.Glob.Matching

/-!
# Reading glob patterns in step

Two drafts that are related in a way that every step keeps stay so while the same text is read into
both. This tells what a pattern is read into once folders are put in front of it, and that a pattern
that starts at the root asks for a separator first. So it tells which paths are matched by a pattern
with folders in front, and by one that starts at the root.
-/

namespace ScenarioAtlas.Glob

set_option autoImplicit false

/-- Whether something was read, so that two stars do not stand at the start of the pattern. -/
def Draft.Started (draft : Draft) : Prop := draft.choices = [] → draft.tokens ≠ []

/-- A relation of drafts that every step of reading keeps. -/
structure Simulation (Rel : Draft → Draft → Prop) : Prop where
  choices : ∀ {a b}, Rel a b → a.choices.isEmpty = b.choices.isEmpty
  tokens : ∀ {a b}, Rel a b → a.Started → a.tokens.isEmpty = b.tokens.isEmpty
  push : ∀ {a b}, Rel a b → ∀ token, token ≠ .leadingFolders ∨ a.choices ≠ [] →
    Rel (a.push token) (b.push token)
  pushFolders : ∀ {a b}, Rel a b → a.Started → ∀ folders,
    folders = .innerFolders ∨ folders = .everythingBelow →
      Rel (a.pushFolders folders) (b.pushFolders folders)
  openChoice : ∀ {a b}, Rel a b → Rel a.openChoice b.openChoice
  nextBranch : ∀ {a b}, Rel a b → Rel a.nextBranch b.nextBranch
  closeChoice : ∀ {a b}, Rel a b →
    (a.closeChoice? = none ∧ b.closeChoice? = none) ∨
      ∃ a' b', a.closeChoice? = some a' ∧ b.closeChoice? = some b' ∧ Rel a' b'

/-- Whether two readings end alike, in related drafts or with the same fault. -/
def Alike (Rel : Draft → Draft → Prop) : Except GlobFault Draft → Except GlobFault Draft → Prop
  | .ok a, .ok b => Rel a b
  | .error a, .error b => a = b
  | _, _ => False

variable {Rel : Draft → Draft → Prop} {a b : Draft}

theorem started_push (draft : Draft) (token : GlobToken) : (draft.push token).Started :=
  fun _ => List.cons_ne_nil _ _

theorem started_pushFolders (draft : Draft) (folders : GlobToken) :
    (draft.pushFolders folders).Started := by
  intro _
  unfold Draft.pushFolders
  split
  all_goals simp_all [Draft.push]

theorem started_openChoice (draft : Draft) : draft.openChoice.Started :=
  fun h => absurd h (List.cons_ne_nil _ _)

theorem started_nextBranch (draft : Draft) : draft.nextBranch.Started := by
  unfold Draft.nextBranch
  split
  · exact fun h => absurd h (List.cons_ne_nil _ _)
  · exact started_push draft _

theorem started_closeChoice {draft later : Draft} (h : draft.closeChoice? = some later) :
    later.Started := by
  unfold Draft.closeChoice? at h
  split at h
  · cases h
    exact fun _ => List.cons_ne_nil _ _
  · cases h

theorem Simulation.starsAfter_eq (h : Simulation Rel) (hrel : Rel a b) (hstarted : a.Started)
    (previous : Option Char) (rest : List Char) :
    starsAfter a previous rest = starsAfter b previous rest := by
  unfold starsAfter
  simp only [h.tokens hrel hstarted, h.choices hrel]

theorem choices_ne_nil_of_leading (hstarted : a.Started) {previous : Option Char} {rest : List Char}
    (h : starsAfter a previous rest = .leading) : a.choices ≠ [] := by
  intro hnone
  have htokens : a.tokens.isEmpty = false := by simpa using hstarted hnone
  unfold starsAfter at h
  simp only [htokens] at h
  repeat' split at h
  all_goals contradiction

theorem slash_of_inner {draft : Draft} {previous : Option Char} {rest : List Char}
    (h : starsAfter draft previous rest = .inner) : ∃ s, rest = '/' :: s := by
  unfold starsAfter at h
  repeat' split at h
  all_goals first | exact ⟨_, rfl⟩ | cases h

theorem starsAfter_eq_runs {draft : Draft} {previous : Option Char} {s : List Char}
    (hleading : starsAfter draft previous s ≠ .leading)
    (hinner : ∀ rest, starsAfter draft previous s = .inner → s ≠ '/' :: rest)
    (hbelow : starsAfter draft previous s ≠ .below) : starsAfter draft previous s = .runs := by
  cases hstars : starsAfter draft previous s with
  | runs => rfl
  | leading => exact absurd hstars hleading
  | below => exact absurd hstars hbelow
  | inner =>
    obtain ⟨rest, hrest⟩ := slash_of_inner hstars
    exact absurd hrest (hinner rest hstars)

theorem readFrom_runs {draft : Draft} {previous : Option Char} {s : List Char}
    (h : starsAfter draft previous s = .runs) :
    Glob.readFrom previous .plain draft ('*' :: '*' :: s) =
      Glob.readFrom (some '*') .plain draft.pushRuns s := by
  rw [Glob.readFrom.eq_def]
  simp only [h]

/-- Whether two stars at the start of a text are read alike into two drafts. -/
def SameStars (previous previous' : Option Char) (a b : Draft) (s : List Char) : Prop :=
  (previous' = previous ∧ a.Started) ∨
    ∀ rest, s = '*' :: '*' :: rest →
      starsAfter a previous rest = .runs ∧ starsAfter b previous' rest = .runs

theorem SameStars.of_started {previous : Option Char} {s : List Char} (h : a.Started) :
    SameStars previous previous a b s :=
  Or.inl ⟨rfl, h⟩

theorem SameStars.started {previous previous' : Option Char} {rest : List Char}
    (h : SameStars previous previous' a b ('*' :: '*' :: rest))
    (hstars : starsAfter a previous rest ≠ .runs) : previous' = previous ∧ a.Started := by
  apply h.resolve_right
  intro hruns
  exact hstars (hruns rest rfl).1

theorem Simulation.stars_eq (h : Simulation Rel) (hrel : Rel a b)
    {previous previous' : Option Char} {rest : List Char}
    (hsame : SameStars previous previous' a b ('*' :: '*' :: rest)) :
    starsAfter b previous' rest = starsAfter a previous rest := by
  rcases hsame with ⟨rfl, hstarted⟩ | hruns
  · exact (h.starsAfter_eq hrel hstarted _ _).symm
  · obtain ⟨ha, hb⟩ := hruns rest rfl
    exact hb.trans ha.symm

/-- Reading the same text keeps related drafts related. -/
theorem Simulation.readFrom (h : Simulation Rel) (previous : Option Char) (mode : Mode) (a : Draft)
    (s : List Char) :
    ∀ previous' b, Rel a b → (mode = .plain → SameStars previous previous' a b s) →
      Alike Rel (readFrom previous mode a s) (readFrom previous' mode b s) := by
  fun_induction Glob.readFrom previous mode a s with
  | case1 => exact fun _ _ hrel _ => hrel
  | case2 | case3 => exact fun _ _ _ _ => rfl
  | case4 previous a c s ih =>
    intro previous' b hrel _
    apply ih _ _ (h.push hrel _ (Or.inl nofun))
    exact fun _ => SameStars.of_started (started_push _ _)
  | case5 previous a c s negated first inRange ranges hclose kept ih =>
    intro previous' b hrel _
    rw [Glob.readFrom, if_pos hclose]
    apply ih _ _ (h.push hrel _ (Or.inl nofun))
    exact fun _ => SameStars.of_started (started_push _ _)
  | case6 previous a c s negated first ranges hopen kept hextend ih =>
    intro previous' b hrel _
    rw [Glob.readFrom, if_neg hopen, if_pos rfl, hextend]
    exact ih _ _ hrel nofun
  | case7 previous a c s negated first ranges hopen fault hextend =>
    intro previous' b hrel _
    rw [Glob.readFrom, if_neg hopen, if_pos rfl, hextend]
    exact rfl
  | case8 previous a c s negated first inRange ranges hopen hrange hdash ih =>
    intro previous' b hrel _
    rw [Glob.readFrom, if_neg hopen, if_neg hrange, if_pos hdash]
    exact ih _ _ hrel nofun
  | case9 previous a c s negated first inRange ranges hopen hrange hdash ih =>
    intro previous' b hrel _
    rw [Glob.readFrom, if_neg hopen, if_neg hrange, if_neg hdash]
    exact ih _ _ hrel nofun
  | case10 previous a s ih =>
    intro previous' b hrel _
    apply ih _ _ (h.push hrel _ (Or.inl nofun))
    exact fun _ => SameStars.of_started (started_push _ _)
  | case11 previous a s hstars ih | case12 previous a s hslash hstars ih =>
    intro previous' b hrel hsame
    have hstars' := (h.stars_eq hrel (hsame rfl)).trans hstars
    obtain ⟨rfl, hstarted⟩ := (hsame rfl).started (by simp [hstars])
    have hchoices := choices_ne_nil_of_leading hstarted hstars
    simp only [Glob.readFrom, hstars, hstars']
    apply ih _ _ (h.push hrel _ (Or.inr hchoices))
    exact fun _ => SameStars.of_started (started_push _ _)
  | case13 previous a s hstars ih =>
    intro previous' b hrel hsame
    have hstars' := (h.stars_eq hrel (hsame rfl)).trans hstars
    obtain ⟨rfl, hstarted⟩ := (hsame rfl).started (by simp [hstars])
    simp only [Glob.readFrom, hstars, hstars']
    apply ih _ _ (h.pushFolders hrel hstarted _ (Or.inl rfl))
    exact fun _ => SameStars.of_started (started_pushFolders _ _)
  | case14 previous a s hstars ih =>
    intro previous' b hrel hsame
    have hstars' := (h.stars_eq hrel (hsame rfl)).trans hstars
    obtain ⟨rfl, hstarted⟩ := (hsame rfl).started (by simp [hstars])
    simp only [Glob.readFrom, hstars, hstars']
    apply ih _ _ (h.pushFolders hrel hstarted _ (Or.inr rfl))
    exact fun _ => SameStars.of_started (started_pushFolders _ _)
  | case15 previous a s hslash hleading hinner hbelow ih =>
    intro previous' b hrel hsame
    have hruns := starsAfter_eq_runs hleading hinner hbelow
    have hruns' := (h.stars_eq hrel (hsame rfl)).trans hruns
    simp only [hruns, readFrom_runs hruns']
    apply ih _ _ (h.push (h.push hrel .run (Or.inl nofun)) .run (Or.inl nofun))
    exact fun _ => SameStars.of_started (started_push _ _)
  | case16 previous a s hstar ih =>
    intro previous' b hrel _
    simp only [Glob.readFrom]
    apply ih _ _ (h.push hrel _ (Or.inl nofun))
    exact fun _ => SameStars.of_started (started_push _ _)
  | case17 previous a s ih | case18 previous a s ih | case24 previous a s ih =>
    intro previous' b hrel _
    exact ih _ _ hrel nofun
  | case19 previous a s hbang hcaret ih =>
    intro previous' b hrel _
    simp only [Glob.readFrom]
    exact ih _ _ hrel nofun
  | case20 previous a s ih =>
    intro previous' b hrel _
    apply ih _ _ (h.openChoice hrel)
    exact fun _ => SameStars.of_started (started_openChoice _)
  | case21 previous a s later hclose ih =>
    intro previous' b hrel _
    rcases h.closeChoice hrel with ⟨hnone, -⟩ | ⟨a', b', ha, hb, hkept⟩
    · rw [hclose] at hnone
      cases hnone
    · obtain rfl := Option.some.inj (hclose.symm.trans ha)
      rw [Glob.readFrom, hb]
      apply ih _ _ hkept
      exact fun _ => SameStars.of_started (started_closeChoice hclose)
  | case22 previous a s hclose =>
    intro previous' b hrel _
    rcases h.closeChoice hrel with ⟨-, hnone⟩ | ⟨a', b', ha, -⟩
    · rw [Glob.readFrom, hnone]
      exact rfl
    · rw [hclose] at ha
      cases ha
  | case23 previous a s ih =>
    intro previous' b hrel _
    apply ih _ _ (h.nextBranch hrel)
    exact fun _ => SameStars.of_started (started_nextBranch _)
  | case25 previous a c s hone hstars hrun hbang hcaret hset hopen hclose hcomma hescape ih =>
    intro previous' b hrel _
    simp only [Glob.readFrom]
    apply ih _ _ (h.push hrel _ (Or.inl nofun))
    exact fun _ => SameStars.of_started (started_push _ _)

/-- Whether two drafts differ only by leading folders in front of what the second one holds; there
are none outside of choices in the first. -/
inductive BehindFolders : Draft → Draft → Prop where
  | outside (tokens : List GlobToken) (h : .leadingFolders ∉ tokens) :
    BehindFolders ⟨tokens, []⟩ ⟨tokens ++ [.leadingFolders], []⟩
  | inside (inner : List (List (List GlobToken) × List GlobToken)) {tokens outer : List GlobToken}
    {branches : List (List GlobToken)} (h : .leadingFolders ∉ outer) :
    BehindFolders ⟨tokens, inner ++ [(branches, outer)]⟩
      ⟨tokens, inner ++ [(branches, outer ++ [.leadingFolders])]⟩

theorem simulation_behindFolders : Simulation BehindFolders where
  choices hrel := by
    cases hrel with
    | outside tokens hnone => rfl
    | inside inner hnone => cases inner <;> rfl
  tokens hrel hstarted := by
    cases hrel with
    | outside tokens hnone =>
      cases tokens with
      | nil => exact absurd rfl (hstarted rfl)
      | cons token before => rfl
    | inside inner hnone => rfl
  push hrel token htoken := by
    cases hrel with
    | outside tokens hnone =>
      have hne := htoken.resolve_right (fun hinside => hinside rfl)
      exact .outside _ (List.not_mem_cons_of_ne_of_not_mem (Ne.symm hne) hnone)
    | inside inner hnone => exact .inside inner hnone
  pushFolders hrel hstarted folders hfolders := by
    cases hrel with
    | outside tokens hnone =>
      have hne : GlobToken.leadingFolders ≠ folders := by
        rcases hfolders with rfl | rfl <;> nofun
      cases tokens with
      | nil => exact absurd rfl (hstarted rfl)
      | cons token before =>
        have hbefore := List.not_mem_of_not_mem_cons hnone
        cases token with
        | leadingFolders => exact absurd List.mem_cons_self hnone
        | everythingBelow => exact .outside _ hnone
        | _ => exact .outside _ (List.not_mem_cons_of_ne_of_not_mem hne hbefore)
    | @inside inner tokens _ _ hnone =>
      cases tokens with
      | nil => exact .inside inner hnone
      | cons token before => cases token <;> exact .inside inner hnone
  openChoice hrel := by
    cases hrel with
    | outside tokens hnone => exact .inside [] hnone
    | inside inner hnone => exact .inside (_ :: inner) hnone
  nextBranch hrel := by
    cases hrel with
    | outside tokens hnone => exact .outside _ (List.not_mem_cons_of_ne_of_not_mem nofun hnone)
    | inside inner hnone =>
      cases inner with
      | nil => exact .inside [] hnone
      | cons choice inner => exact .inside (_ :: inner) hnone
  closeChoice hrel := by
    cases hrel with
    | outside tokens hnone => exact Or.inl ⟨rfl, rfl⟩
    | inside inner hnone =>
      right
      cases inner with
      | nil =>
        refine ⟨_, _, rfl, rfl, .outside _ ?_⟩
        exact List.not_mem_cons_of_ne_of_not_mem nofun hnone
      | cons choice inner => exact ⟨_, _, rfl, rfl, .inside inner hnone⟩

/-- Whether a draft asks for a separator before everything else outside of choices; drafts are only
related to themselves. -/
inductive Rooted : Draft → Draft → Prop where
  | outside (front : List GlobToken) {token : GlobToken} (h : startsRooted token) :
    Rooted ⟨front ++ [token], []⟩ ⟨front ++ [token], []⟩
  | inside (inner : List (List (List GlobToken) × List GlobToken)) {tokens front : List GlobToken}
    {token : GlobToken} {branches : List (List GlobToken)} (h : startsRooted token) :
    Rooted ⟨tokens, inner ++ [(branches, front ++ [token])]⟩
      ⟨tokens, inner ++ [(branches, front ++ [token])]⟩

theorem simulation_rooted : Simulation Rooted where
  choices hrel := by cases hrel <;> rfl
  tokens hrel _ := by cases hrel <;> rfl
  push hrel token _ := by
    cases hrel with
    | outside front hroot => exact .outside (token :: front) hroot
    | inside inner hroot => exact .inside inner hroot
  pushFolders hrel _ folders hfolders := by
    have hasks : startsRooted folders := by
      rcases hfolders with rfl | rfl <;> trivial
    cases hrel with
    | @outside front token hroot =>
      cases front with
      | nil =>
        cases token with
        | everythingBelow => exact .outside [] hroot
        | leadingFolders => exact hroot.elim
        | _ => exact .outside [] hasks
      | cons first front =>
        cases first with
        | everythingBelow | leadingFolders => exact .outside (_ :: front) hroot
        | _ => exact .outside (folders :: front) hroot
    | @inside inner tokens _ _ _ hroot =>
      cases tokens with
      | nil => exact .inside inner hroot
      | cons token before => cases token <;> exact .inside inner hroot
  openChoice hrel := by
    cases hrel with
    | outside front hroot => exact .inside [] hroot
    | inside inner hroot => exact .inside (_ :: inner) hroot
  nextBranch hrel := by
    cases hrel with
    | outside front hroot => exact .outside (_ :: front) hroot
    | inside inner hroot =>
      cases inner with
      | nil => exact .inside [] hroot
      | cons choice inner => exact .inside (_ :: inner) hroot
  closeChoice hrel := by
    cases hrel with
    | outside front hroot => exact Or.inl ⟨rfl, rfl⟩
    | inside inner hroot =>
      right
      cases inner with
      | nil => exact ⟨_, _, rfl, rfl, .outside (_ :: _) hroot⟩
      | cons choice inner => exact ⟨_, _, rfl, rfl, .inside inner hroot⟩

def foldersDraft : Draft := ⟨[.leadingFolders], []⟩

def dropFolders : List Char → List Char
  | ['*', '*'] => []
  | '*' :: '*' :: '/' :: s => dropFolders s
  | s => s

/-- Folders behind leading folders add nothing to them. -/
theorem readFrom_dropFolders (s : List Char) :
    Glob.readFrom (some '/') .plain foldersDraft (dropFolders s) =
      Glob.readFrom (some '/') .plain foldersDraft s := by
  fun_induction dropFolders s with
  | case1 => rfl
  | case2 s ih =>
    rw [ih]
    rfl
  | case3 => rfl

theorem starsAfter_runs {draft : Draft} (h : draft.choices = []) {c : Char} (hc : c ≠ '/')
    {previous : Option Char} {rest : List Char} :
    starsAfter draft previous (c :: rest) = .runs := by
  unfold starsAfter
  split
  · split
    case h_1 heq => cases heq
    case h_2 heq => exact absurd (List.cons.inj heq).1 hc
    case h_3 => rfl
  · split
    · rfl
    · split
      case h_1 heq => cases heq
      case h_2 heq => exact absurd (List.cons.inj heq).1 hc
      case h_3 => simp [h]

/-- A pattern that no folders open is read behind leading folders as it is read alone. -/
theorem alike_of_not_opens {s : List Char} (hwhole : s ≠ ['*', '*'])
    (hfirst : ∀ rest, s ≠ '*' :: '*' :: '/' :: rest) :
    Alike BehindFolders (Glob.readFrom none .plain {} s)
      (Glob.readFrom (some '/') .plain foldersDraft s) := by
  apply simulation_behindFolders.readFrom none .plain {} s (some '/') foldersDraft
    (.outside [] nofun)
  intro _
  right
  intro rest hrest
  subst hrest
  cases rest with
  | nil => exact absurd rfl hwhole
  | cons c rest =>
    have hslash : c ≠ '/' := fun hc => hfirst rest (by rw [hc])
    exact ⟨starsAfter_runs rfl hslash, starsAfter_runs rfl hslash⟩

theorem dropFolders_opens (s : List Char) :
    dropFolders s ≠ ['*', '*'] ∧ ∀ rest, dropFolders s ≠ '*' :: '*' :: '/' :: rest := by
  fun_induction dropFolders s with
  | case1 => exact ⟨nofun, nofun⟩
  | case2 s ih => exact ih
  | case3 s hwhole hfirst => exact ⟨fun heq => hwhole heq, fun rest heq => hfirst rest heq⟩

theorem BehindFolders.of_left {tokens : List GlobToken} (h : BehindFolders ⟨tokens, []⟩ b) :
    b = ⟨tokens ++ [.leadingFolders], []⟩ ∧ .leadingFolders ∉ tokens := by
  generalize hdraft : (⟨tokens, []⟩ : Draft) = a at h
  cases h with
  | outside own hnone =>
    cases hdraft
    exact ⟨rfl, hnone⟩
  | inside inner hnone => simp at hdraft

theorem BehindFolders.of_right {tokens : List GlobToken} (h : BehindFolders a ⟨tokens, []⟩) :
    ∃ own, tokens = own ++ [.leadingFolders] := by
  generalize hdraft : (⟨tokens, []⟩ : Draft) = b at h
  cases h with
  | outside own hnone =>
    cases hdraft
    exact ⟨own, rfl⟩
  | inside inner hnone => simp at hdraft

theorem Rooted.of_same {tokens : List GlobToken} (h : Rooted ⟨tokens, []⟩ b) :
    ∃ front token, tokens = front ++ [token] ∧ startsRooted token := by
  generalize hdraft : (⟨tokens, []⟩ : Draft) = a at h
  cases h with
  | @outside front token hroot =>
    cases hdraft
    exact ⟨front, token, rfl, hroot⟩
  | inside inner hroot => simp at hdraft

theorem read_eq_ok_iff {pattern : String} {tokens : List GlobToken} :
    read pattern = .ok tokens ↔
      Glob.readFrom none .plain {} pattern.toList = .ok ⟨tokens.reverse, []⟩ := by
  unfold read
  cases hread : Glob.readFrom none .plain {} pattern.toList with
  | error fault => simp
  | ok draft =>
    obtain ⟨read, choices⟩ := draft
    cases choices with
    | nil => simp [List.reverse_eq_iff]
    | cons choice rest => simp

/-- With folders put in front, a pattern is read into leading folders and then into what it is read
into itself, leading folders at its own start excepted. -/
theorem read_folders {pattern : String} {tokens : List GlobToken} (h : read pattern = .ok tokens) :
    ∃ below, read ("**/" ++ pattern) = .ok (.leadingFolders :: below) ∧
      (tokens = .leadingFolders :: below ∨ (tokens = below ∧ .leadingFolders ∉ below)) := by
  have hfolders : ∀ below, Glob.readFrom (some '/') .plain foldersDraft pattern.toList =
      .ok ⟨below.reverse ++ [.leadingFolders], []⟩ →
        read ("**/" ++ pattern) = .ok (.leadingFolders :: below) := by
    intro below hbelow
    rw [read_eq_ok_iff, String.toList_append, List.reverse_cons]
    exact hbelow
  rw [read_eq_ok_iff] at h
  by_cases hopens : pattern.toList = ['*', '*'] ∨ ∃ rest, pattern.toList = '*' :: '*' :: '/' :: rest
  · have hsame : Glob.readFrom none .plain {} pattern.toList =
        Glob.readFrom (some '/') .plain foldersDraft pattern.toList := by
      rcases hopens with heq | ⟨rest, heq⟩ <;> rw [heq] <;> rfl
    obtain ⟨hwhole, hfirst⟩ := dropFolders_opens pattern.toList
    have halike := alike_of_not_opens hwhole hfirst
    rw [readFrom_dropFolders, ← hsame, h] at halike
    cases halone : Glob.readFrom none .plain {} (dropFolders pattern.toList) with
    | error fault =>
      rw [halone] at halike
      exact halike.elim
    | ok draft =>
      rw [halone] at halike
      obtain ⟨own, hown⟩ := BehindFolders.of_right halike
      have htokens : tokens = .leadingFolders :: own.reverse := by
        rw [List.reverse_eq_iff] at hown
        simpa using hown
      refine ⟨own.reverse, hfolders _ ?_, Or.inl htokens⟩
      rw [← hsame, h, htokens, List.reverse_cons]
  · rw [not_or, not_exists] at hopens
    have halike := alike_of_not_opens hopens.1 hopens.2
    rw [h] at halike
    cases hread : Glob.readFrom (some '/') .plain foldersDraft pattern.toList with
    | error fault =>
      rw [hread] at halike
      exact halike.elim
    | ok draft =>
      rw [hread] at halike
      obtain ⟨rfl, hnone⟩ := BehindFolders.of_left halike
      exact ⟨tokens, hfolders tokens hread, Or.inr ⟨rfl, by simpa using hnone⟩⟩

/-- A pattern that starts at the root asks for a separator first. -/
theorem read_rooted {pattern : String} {tokens : List GlobToken} (h : read pattern = .ok tokens)
    (hroot : Path.isRooted pattern.toList = true) :
    ∃ token rest, tokens = token :: rest ∧ startsRooted token := by
  obtain ⟨s, hs⟩ : ∃ s, pattern.toList = '/' :: s := by
    cases hpattern : pattern.toList with
    | nil => simp [hpattern, Path.isRooted] at hroot
    | cons c s =>
      rw [hpattern] at hroot
      exact ⟨s, by simpa [Path.isRooted] using hroot⟩
  rw [read_eq_ok_iff, hs] at h
  have hslash : Rooted ⟨[.literal '/'], []⟩ ⟨[.literal '/'], []⟩ := .outside [] rfl
  have halike := simulation_rooted.readFrom (some '/') .plain _ s (some '/') _ hslash
    fun _ => Or.inl ⟨rfl, fun _ => List.cons_ne_nil _ _⟩
  have hread : Glob.readFrom (some '/') .plain ⟨[.literal '/'], []⟩ s =
      .ok ⟨tokens.reverse, []⟩ := h
  rw [hread] at halike
  obtain ⟨front, token, htokens, hasks⟩ := Rooted.of_same halike
  rw [List.reverse_eq_iff] at htokens
  exact ⟨token, front.reverse, by simpa using htokens, hasks⟩

theorem patternMatches_of_read {pattern : String} {tokens : List GlobToken}
    (h : read pattern = .ok tokens) (path : List Char) :
    patternMatches pattern path = matchesPath tokens path := by
  simp [patternMatches, h]

theorem exists_of_patternMatches {pattern : String} {path : List Char}
    (h : patternMatches pattern path = true) :
    ∃ tokens, read pattern = .ok tokens ∧ matchesPath tokens path = true := by
  unfold patternMatches at h
  cases hread : read pattern with
  | error error => simp [hread] at h
  | ok tokens => exact ⟨tokens, rfl, by simpa [hread] using h⟩

theorem started_of_readFrom (previous : Option Char) (mode : Mode) (draft : Draft) (s : List Char)
    {later : Draft} (h : Glob.readFrom previous mode draft s = .ok later)
    (hsome : mode = .plain → draft.Started ∨ s ≠ []) : later.Started := by
  fun_induction Glob.readFrom previous mode draft s with
  | case1 =>
    cases h
    exact (hsome rfl).resolve_right (fun hne => hne rfl)
  | case2 | case3 | case7 | case22 => cases h
  | case6 previous a c s negated first ranges hopen kept hextend ih => exact ih h nofun
  | case8 previous a c s negated first inRange ranges hopen hrange hdash ih
  | case9 previous a c s negated first inRange ranges hopen hrange hdash ih => exact ih h nofun
  | case17 previous a s ih | case18 previous a s ih | case24 previous a s ih => exact ih h nofun
  | case19 previous a s hbang hcaret ih => exact ih h nofun
  | case11 previous a s hstars ih | case12 previous a s hslash hstars ih =>
    simp only [hstars] at h
    exact ih h fun _ => Or.inl (started_push _ _)
  | case13 previous a s hstars ih | case14 previous a s hstars ih =>
    simp only [hstars] at h
    exact ih h fun _ => Or.inl (started_pushFolders _ _)
  | case15 previous a s hslash hleading hinner hbelow ih =>
    simp only [starsAfter_eq_runs hleading hinner hbelow] at h
    exact ih h fun _ => Or.inl (started_push _ _)
  | case20 previous a s ih => exact ih h fun _ => Or.inl (started_openChoice _)
  | case21 previous a s later hclose ih => exact ih h fun _ => Or.inl (started_closeChoice hclose)
  | case23 previous a s ih => exact ih h fun _ => Or.inl (started_nextBranch _)
  | case4 previous a c s ih | case10 previous a s ih | case16 previous a s hstar ih =>
    exact ih h fun _ => Or.inl (started_push _ _)
  | case5 previous a c s negated first inRange ranges hclose kept ih =>
    exact ih h fun _ => Or.inl (started_push _ _)
  | case25 previous a c s hone hstars hrun hbang hcaret hset hopen hclose hcomma hescape ih =>
    exact ih h fun _ => Or.inl (started_push _ _)

theorem ne_nil_of_read {pattern : String} {tokens : List GlobToken} (h : read pattern = .ok tokens)
    (hpattern : pattern ≠ "") : tokens ≠ [] := by
  have hstarted := started_of_readFrom none .plain {} pattern.toList (read_eq_ok_iff.mp h)
    fun _ => Or.inr (by simpa using hpattern)
  simpa using hstarted rfl

/-- What a pattern matches is matched behind any folders by the pattern with folders in front. -/
theorem patternMatches_folders {pattern : String} {path : List Char}
    (h : patternMatches pattern path = true) (folders : List Char) :
    patternMatches ("**/" ++ pattern) (folders ++ '/' :: path) = true := by
  obtain ⟨tokens, hread, hmatch⟩ := exists_of_patternMatches h
  obtain ⟨below, hfolders, htokens⟩ := read_folders hread
  rw [patternMatches, hfolders]
  cases below with
  | nil => rfl
  | cons token rest =>
    apply List.contains_iff_mem.mpr
    rcases htokens with rfl | ⟨rfl, hnone⟩
    · exact restsAfterAll_leadingFolders_append (List.contains_iff_mem.mp hmatch) folders
    · rw [matchesPath_eq (fun heq => hnone (by simp [heq]))] at hmatch
      exact restsAfterAll_leadingFolders_iff.mpr
        (Or.inr ⟨folders, path, rfl, List.contains_iff_mem.mp hmatch⟩)

/-- A pattern with folders in front matches the paths that end in one that the pattern matches, and no
others; the empty pattern is an exception, since folders alone match every path. -/
theorem patternMatches_folders_iff {pattern : String} {tokens : List GlobToken}
    (hread : read pattern = .ok tokens) (hpattern : pattern ≠ "") {path : List Char} :
    patternMatches ("**/" ++ pattern) path = true ↔
      patternMatches pattern path = true ∨
        ∃ folders below, path = folders ++ '/' :: below ∧ patternMatches pattern below = true := by
  obtain ⟨below, hfolders, htokens⟩ := read_folders hread
  rcases htokens with rfl | ⟨rfl, hnone⟩
  · have hsame : ∀ path, patternMatches ("**/" ++ pattern) path = patternMatches pattern path := by
      intro path
      rw [patternMatches, patternMatches, hfolders, hread]
    rw [hsame]
    constructor
    · exact Or.inl
    · rintro (h | ⟨folders, rest, rfl, h⟩)
      · exact h
      · rw [← hsame]
        exact patternMatches_folders h folders
  · have halone : ∀ path, patternMatches pattern path = true ↔
        [] ∈ restsAfterAll [utf8Bytes path] tokens := by
      intro path
      rw [patternMatches_of_read hread, matchesPath_eq (fun heq => hnone (by simp [heq])),
        List.contains_iff_mem]
    have hsome : GlobToken.leadingFolders :: tokens ≠ [.leadingFolders] := by
      simpa using ne_nil_of_read hread hpattern
    rw [patternMatches_of_read hfolders, matchesPath_eq hsome, List.contains_iff_mem,
      restsAfterAll_leadingFolders_iff]
    simp only [halone]

/-- A pattern that starts at the root matches no path that does not. -/
theorem patternMatches_eq_false_of_isRooted {pattern : String} {path : List Char}
    (hroot : Path.isRooted pattern.toList = true) (hpath : path.head? ≠ some '/') :
    patternMatches pattern path = false := by
  rw [Bool.eq_false_iff]
  intro h
  obtain ⟨tokens, hread, hmatch⟩ := exists_of_patternMatches h
  obtain ⟨token, rest, rfl, hasks⟩ := read_rooted hread hroot
  rw [matchesPath_eq_false_of_startsRooted hasks rest hpath] at hmatch
  cases hmatch

end ScenarioAtlas.Glob
