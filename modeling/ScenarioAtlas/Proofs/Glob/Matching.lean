import Mathlib.Data.List.Basic
import ScenarioAtlas.Glob.Matcher

/-!
# What glob tokens match below a folder

Tokens leave of several texts what they leave of any one of them. So with leading folders in front of
them they match the paths that they match themselves, behind any folders, and no others. Tokens that
ask for a separator first match no text that starts otherwise.
-/

namespace ScenarioAtlas

set_option autoImplicit false

theorem utf8Bytes_slash_cons (s : List Char) :
    utf8Bytes ('/' :: s) = Glob.separator :: utf8Bytes s := rfl

namespace Glob

theorem separator_eq_ofNat_iff {n : Nat} : separator = UInt8.ofNat n ↔ n % 256 = 47 := by
  rw [← UInt8.toNat_inj, UInt8.toNat_ofNat']
  exact eq_comm

/-- The byte of the separator is written for no character but `/`. -/
theorem separator_not_mem_utf8EncodeChar {c : Char} (h : c ≠ '/') :
    separator ∉ String.utf8EncodeChar c := by
  have hvalue : c.val.toNat ≠ 47 := fun heq => h (Char.ext (UInt32.toNat_inj.mp heq))
  unfold String.utf8EncodeChar
  dsimp only
  repeat' split
  all_goals
    simp only [List.mem_cons, List.not_mem_nil, or_false, separator_eq_ofNat_iff]
    omega

theorem head?_utf8Bytes_ne {path : List Char} (h : path.head? ≠ some '/') :
    (utf8Bytes path).head? ≠ some separator := by
  cases path with
  | nil => nofun
  | cons c s =>
    have hc : c ≠ '/' := by simpa using h
    have hsome : String.utf8EncodeChar c ≠ [] := String.utf8EncodeChar_ne_nil
    rw [utf8Bytes, List.flatMap_cons, List.head?_append_of_ne_nil _ hsome]
    exact fun hhead => separator_not_mem_utf8EncodeChar hc (List.mem_of_mem_head? hhead)

mutual

theorem mem_restsAfter_iff : ∀ (token : GlobToken) {texts : List (List UInt8)} {left : List UInt8},
    left ∈ restsAfter texts token ↔ ∃ text ∈ texts, left ∈ restsAfter [text] token
  | .choice branches, texts, left => by
    simp only [restsAfter]
    split
    · simp
    · exact mem_restsAfterAny_iff branches
  | .literal _, _, _ | .one, _, _ | .run, _, _ | .leadingFolders, _, _
  | .innerFolders, _, _ | .everythingBelow, _, _ | .oneOf _ _, _, _ => by
    simp only [restsAfter, List.mem_flatMap, List.mem_singleton, exists_eq_left]

theorem mem_restsAfterAll_iff :
    ∀ (tokens : List GlobToken) {texts : List (List UInt8)} {left : List UInt8},
      left ∈ restsAfterAll texts tokens ↔ ∃ text ∈ texts, left ∈ restsAfterAll [text] tokens
  | [], _, _ => by simp only [restsAfterAll, List.mem_singleton, exists_eq_right']
  | token :: rest, texts, left => by
    have hfirst : ∀ more, left ∈ restsAfterAll more (token :: rest) ↔
        ∃ next ∈ restsAfter more token, left ∈ restsAfterAll [next] rest := by
      intro more
      rw [restsAfterAll, mem_restsAfterAll_iff rest]
      simp only [List.mem_eraseDups]
    simp only [hfirst]
    constructor
    · rintro ⟨next, hnext, hleft⟩
      obtain ⟨text, htext, hnext⟩ := (mem_restsAfter_iff token).mp hnext
      exact ⟨text, htext, next, hnext, hleft⟩
    · rintro ⟨text, htext, next, hnext, hleft⟩
      exact ⟨next, (mem_restsAfter_iff token).mpr ⟨text, htext, hnext⟩, hleft⟩

theorem mem_restsAfterAny_iff :
    ∀ (branches : List (List GlobToken)) {texts : List (List UInt8)} {left : List UInt8},
      left ∈ restsAfterAny texts branches ↔ ∃ text ∈ texts, left ∈ restsAfterAny [text] branches
  | [], _, _ => by simp [restsAfterAny]
  | branch :: rest, texts, left => by
    simp only [restsAfterAny, List.mem_append]
    rw [mem_restsAfterAny_iff rest]
    split
    · simp
    · rw [mem_restsAfterAll_iff branch, ← exists_or]
      simp only [and_or_left]

end

theorem restsAfterAll_nil (tokens : List GlobToken) : restsAfterAll [] tokens = [] := by
  apply List.eq_nil_iff_forall_not_mem.mpr
  intro left hleft
  obtain ⟨text, htext, -⟩ := (mem_restsAfterAll_iff tokens).mp hleft
  cases htext

theorem restsBehindSeparators_append {s : List UInt8} (h : separator ∉ s) (t : List UInt8) :
    restsBehindSeparators (s ++ t) = restsBehindSeparators t := by
  induction s with
  | nil => rfl
  | cons b s ih =>
    have hb : separator ≠ b := List.ne_of_not_mem_cons h
    have hs : separator ∉ s := List.not_mem_of_not_mem_cons h
    rw [List.cons_append, restsBehindSeparators, if_neg hb.symm, ih hs]
    rfl

theorem mem_restsBehindSeparators_utf8Bytes_iff {path : List Char} {rest : List UInt8} :
    rest ∈ restsBehindSeparators (utf8Bytes path) ↔
      ∃ folders below, path = folders ++ '/' :: below ∧ rest = utf8Bytes below := by
  induction path with
  | nil => simp [utf8Bytes, restsBehindSeparators]
  | cons c path ih =>
    have hcut : (∃ folders below, c :: path = folders ++ '/' :: below ∧ rest = utf8Bytes below) ↔
        (c = '/' ∧ rest = utf8Bytes path) ∨
          ∃ folders below, path = folders ++ '/' :: below ∧ rest = utf8Bytes below := by
      constructor
      · rintro ⟨_ | ⟨first, folders⟩, below, hpath, hrest⟩
        · obtain ⟨rfl, rfl⟩ := List.cons.inj hpath
          exact Or.inl ⟨rfl, hrest⟩
        · exact Or.inr ⟨folders, below, (List.cons.inj hpath).2, hrest⟩
      · rintro (⟨rfl, hrest⟩ | ⟨folders, below, rfl, hrest⟩)
        · exact ⟨[], path, rfl, hrest⟩
        · exact ⟨c :: folders, below, rfl, hrest⟩
    rw [hcut, ← ih]
    by_cases hc : c = '/'
    · subst hc
      rw [utf8Bytes_slash_cons, restsBehindSeparators, if_pos rfl, List.mem_append,
        List.mem_singleton, and_iff_right rfl]
    · have hbytes : utf8Bytes (c :: path) = String.utf8EncodeChar c ++ utf8Bytes path :=
        List.flatMap_cons
      rw [hbytes, restsBehindSeparators_append (separator_not_mem_utf8EncodeChar hc)]
      exact (or_iff_right fun h => hc h.1).symm

theorem matchesPath_eq {tokens : List GlobToken} (h : tokens ≠ [.leadingFolders])
    (path : List Char) :
    matchesPath tokens path = (restsAfterAll [utf8Bytes path] tokens).contains [] := by
  unfold matchesPath
  split
  · exact absurd rfl h
  · rfl

/-- Behind leading folders tokens match a path where they match all of it or what is below a folder
of it. -/
theorem restsAfterAll_leadingFolders_iff {tokens : List GlobToken} {path : List Char} :
    [] ∈ restsAfterAll [utf8Bytes path] (.leadingFolders :: tokens) ↔
      [] ∈ restsAfterAll [utf8Bytes path] tokens ∨ ∃ folders below,
        path = folders ++ '/' :: below ∧ [] ∈ restsAfterAll [utf8Bytes below] tokens := by
  have hrests : ∀ rest, rest ∈ restsAfter [utf8Bytes path] .leadingFolders ↔
      rest = utf8Bytes path ∨ rest ∈ restsBehindSeparators (utf8Bytes path) := by
    intro rest
    simp [restsAfter, simpleRests]
  rw [restsAfterAll, mem_restsAfterAll_iff tokens]
  simp only [List.mem_eraseDups, hrests, mem_restsBehindSeparators_utf8Bytes_iff]
  constructor
  · rintro ⟨rest, rfl | ⟨folders, below, hpath, rfl⟩, hmatch⟩
    · exact Or.inl hmatch
    · exact Or.inr ⟨folders, below, hpath, hmatch⟩
  · rintro (hmatch | ⟨folders, below, hpath, hmatch⟩)
    · exact ⟨_, Or.inl rfl, hmatch⟩
    · exact ⟨_, Or.inr ⟨folders, below, hpath, rfl⟩, hmatch⟩

theorem restsAfterAll_leadingFolders_append {tokens : List GlobToken} {path : List Char}
    (h : [] ∈ restsAfterAll [utf8Bytes path] (.leadingFolders :: tokens)) (folders : List Char) :
    [] ∈ restsAfterAll [utf8Bytes (folders ++ '/' :: path)] (.leadingFolders :: tokens) := by
  rw [restsAfterAll_leadingFolders_iff] at h ⊢
  rcases h with hmatch | ⟨more, below, rfl, hmatch⟩
  · exact Or.inr ⟨folders, path, rfl, hmatch⟩
  · exact Or.inr ⟨folders ++ '/' :: more, below, by simp, hmatch⟩

/-- A token that asks for a separator. -/
def startsRooted : GlobToken → Prop
  | .literal c => c = '/'
  | .innerFolders | .everythingBelow => True
  | _ => False

theorem simpleRests_eq_nil {token : GlobToken} (h : startsRooted token) {s : List UInt8}
    (hs : s.head? ≠ some separator) : simpleRests token s = [] := by
  cases s with
  | nil => cases token <;> first | rfl | exact h.elim | (cases h; rfl)
  | cons b s =>
    have hb : b ≠ separator := by simpa using hs
    cases token with
    | literal c =>
      cases h
      have hslash : String.utf8EncodeChar '/' = [separator] := rfl
      simp [simpleRests, hslash, List.isPrefixOf?, Ne.symm hb]
    | innerFolders => simp [simpleRests, hb]
    | everythingBelow => simp [simpleRests, restsAfterOne, hb]
    | _ => exact h.elim

/-- Tokens of which the first asks for a separator match no path that does not start with one. -/
theorem matchesPath_eq_false_of_startsRooted {token : GlobToken} (h : startsRooted token)
    (rest : List GlobToken) {path : List Char} (hpath : path.head? ≠ some '/') :
    matchesPath (token :: rest) path = false := by
  have hnone := simpleRests_eq_nil h (head?_utf8Bytes_ne hpath)
  have hrests : restsAfter [utf8Bytes path] token = [] := by
    cases token with
    | choice branches => exact h.elim
    | _ => simpa [restsAfter] using hnone
  have hfolders : token :: rest ≠ [.leadingFolders] := by
    rintro ⟨⟩
    exact h
  rw [matchesPath_eq hfolders, restsAfterAll, hrests]
  exact congrArg (List.contains · []) (restsAfterAll_nil rest)

end Glob

end ScenarioAtlas
