import Mathlib.Data.List.Infix
import ScenarioAtlas.Proofs.Text.Blank
import ScenarioAtlas.Source.Row

/-!
# Rows and their escapes

A row is written by writing each cell with escapes, and is split again at the bars that no backslash
takes along. Splitting what was written gives the cells back if their ends outlast trimming. It
succeeds for exactly the texts between a bar and a bare bar, and what it gives can be written again.
-/

namespace ScenarioAtlas.Row

set_option autoImplicit false

/-- Whether a backslash at the end of the text takes the next character along, which it does if it
is not taken along itself. -/
def takesNext (s : List Char) : Bool := s.foldl (fun taken c => !taken && c == '\\') false

/-- The number of bars in a text that no backslash takes along. -/
def bareBars (s : List Char) : Nat :=
  (s.inits.zip s).countP fun (before, c) => c == '|' && !takesNext before

def EndsInBareBar (s : List Char) : Prop := ∃ body, s = body ++ ['|'] ∧ takesNext body = false

/-- Whether the two ends of a cell outlast trimming. A line feed does, since it is written as an
escape. -/
structure HasFirmEnds (cell : List Char) : Prop where
  first : ∀ c ∈ cell.head?, Text.isBlank c = true → c = '\n'
  last : ∀ c ∈ cell.getLast?, Text.isBlank c = true → c = '\n'

theorem hasFirmEnds_iff {cell : List Char} :
    HasFirmEnds cell ↔
      (cell.head?.all fun c => Text.isBlank c → c = '\n') = true ∧
        (cell.getLast?.all fun c => Text.isBlank c → c = '\n') = true := by
  have hall (c? : Option Char) : (c?.all fun c => Text.isBlank c → c = '\n') = true ↔
      ∀ c ∈ c?, Text.isBlank c = true → c = '\n' := by
    cases c? with
    | none => simp
    | some c =>
      simp only [Option.all_some, decide_eq_true_eq, Option.mem_def, Option.some.injEq, forall_eq']
  rw [hall, hall]
  exact ⟨fun ⟨first, last⟩ => ⟨first, last⟩, fun ⟨first, last⟩ => ⟨first, last⟩⟩

instance (cell : List Char) : Decidable (HasFirmEnds cell) := decidable_of_iff _ hasFirmEnds_iff.symm

section Bare

variable (c : Char) (s : List Char)

theorem takesNext_cons {c : Char} (h : c ≠ '\\') : takesNext (c :: s) = takesNext s := by
  simp [takesNext, beq_false_of_ne h]

theorem takesNext_escape : takesNext ('\\' :: c :: s) = takesNext s := by
  simp [takesNext]

theorem bareBars_cons (h : c = '\\' → s = []) :
    bareBars (c :: s) = bareBars s + if c = '|' then 1 else 0 := by
  by_cases hc : c = '\\'
  · subst hc
    rw [h rfl]
    rfl
  · simp only [bareBars, List.inits_cons, List.zip_cons_cons, List.countP_cons, List.zip_map_left,
      List.countP_map, Function.comp_def, Prod.map, id, takesNext_cons _ hc]
    simp [takesNext]

theorem bareBars_escape : bareBars ('\\' :: c :: s) = bareBars s := by
  simp only [bareBars, List.inits_cons, List.map_cons, List.map_map, List.zip_cons_cons,
    List.countP_cons, List.zip_map_left, List.countP_map, Function.comp_def, Prod.map, id,
    takesNext_escape]
  simp [takesNext]

theorem endsInBareBar_cons (h : c = '\\' → s = []) (hbar : c = '|' → s ≠ []) :
    EndsInBareBar (c :: s) ↔ EndsInBareBar s := by
  have hother {body : List Char} (hs : s = body ++ ['|']) : c ≠ '\\' := by
    intro hc
    simp [h hc] at hs
  constructor
  · rintro ⟨body, hbody, htakes⟩
    cases body with
    | nil =>
      obtain ⟨rfl, hs⟩ := List.cons.inj hbody
      exact absurd hs (hbar rfl)
    | cons d body =>
      obtain ⟨rfl, hs⟩ := List.cons.inj hbody
      exact ⟨body, hs, by rwa [takesNext_cons body (hother hs)] at htakes⟩
  · rintro ⟨body, hs, htakes⟩
    exact ⟨c :: body, by rw [hs, List.cons_append], by rwa [takesNext_cons body (hother hs)]⟩

theorem endsInBareBar_escape :
    EndsInBareBar ('\\' :: c :: s) ↔ EndsInBareBar s := by
  constructor
  · rintro ⟨body, hbody, htakes⟩
    rcases body with _ | ⟨d, _ | ⟨e, body⟩⟩
    · cases hbody
    · cases hbody
      cases htakes
    · cases hbody
      exact ⟨body, rfl, by rwa [takesNext_escape] at htakes⟩
  · rintro ⟨body, rfl, htakes⟩
    exact ⟨'\\' :: c :: body, rfl, by rwa [takesNext_escape]⟩

end Bare

section Written

theorem decode_cons {c : Char} (h : c ≠ '\\') (s : List Char) :
    decode (c :: s) = c :: decode s := by
  rw [decode] <;> intro _ hc <;> exact absurd hc h

theorem decode_encode (cell : List Char) : decode (encode cell) = cell := by
  fun_induction encode cell with
  | case1 s ih | case2 s ih | case3 s ih => rw [decode, ih]
  | case4 c s hbar hbackslash hfeed ih => rw [decode_cons hbackslash, ih]
  | case5 => rfl

theorem encode_plain {c : Char} (hbar : c ≠ '|') (hbackslash : c ≠ '\\') (hfeed : c ≠ '\n')
    (s : List Char) : encode (c :: s) = c :: encode s := by
  rw [encode] <;> assumption

theorem encode_cons (c : Char) (s : List Char) :
    ∃ written, encode (c :: s) = written ++ encode s ∧ written ≠ [] ∧
      ((Text.isBlank c = true → c = '\n') → ∀ d ∈ written, Text.isBlank d = false) := by
  by_cases hbar : c = '|'
  · subst hbar
    exact ⟨['\\', '|'], rfl, by simp, fun _ => by simp; decide⟩
  by_cases hbackslash : c = '\\'
  · subst hbackslash
    exact ⟨['\\', '\\'], rfl, by simp, fun _ => by simp; decide⟩
  by_cases hfeed : c = '\n'
  · subst hfeed
    exact ⟨['\\', 'n'], rfl, by simp, fun _ => by simp; decide⟩
  refine ⟨[c], encode_plain hbar hbackslash hfeed s, by simp, fun hblank d hd => ?_⟩
  rw [List.mem_singleton.mp hd, Bool.eq_false_iff]
  exact fun hc => hfeed (hblank hc)

theorem isBlank_of_getLast?_encode {cell : List Char}
    (h : ∀ c, cell.getLast? = some c → Text.isBlank c = true → c = '\n') {d : Char}
    (hd : (encode cell).getLast? = some d) : Text.isBlank d = false := by
  induction cell with
  | nil => cases hd
  | cons c s ih =>
    obtain ⟨written, hwritten, hne, hblank⟩ := encode_cons c s
    rw [hwritten] at hd
    cases s with
    | nil =>
      rw [encode, List.append_nil] at hd
      exact hblank (h c rfl) d (List.mem_of_getLast? hd)
    | cons e s =>
      obtain ⟨next, hnext, hsome, -⟩ := encode_cons e s
      apply ih
      · intro c hc
        exact h c (by rw [List.getLast?_cons_cons, hc])
      · rw [List.getLast?_append_of_ne_nil] at hd
        · exact hd
        · rw [hnext]
          exact List.append_ne_nil_of_left_ne_nil hsome _

theorem HasFirmEnds.trim_encode {cell : List Char} (h : HasFirmEnds cell) :
    Text.trim (encode cell) = encode cell := by
  apply Text.trim_eq_self_of_ends
  · intro d hd
    cases cell with
    | nil => cases hd
    | cons c s =>
      obtain ⟨written, hwritten, hne, hblank⟩ := encode_cons c s
      rw [hwritten, List.head?_append_of_ne_nil _ hne] at hd
      exact hblank (h.first c rfl) d (List.mem_of_head? hd)
  · intro d hd
    exact isBlank_of_getLast?_encode h.last hd

theorem Padded.trim_written (cell : Padded) (h : HasFirmEnds cell.text) :
    Text.trim cell.written = encode cell.text := by
  have hbefore := List.all_eq_true.mp cell.blank_before
  have hafter := List.all_eq_true.mp cell.blank_after
  rw [written, Text.trim_append hbefore hafter, h.trim_encode]

end Written

section Split

theorem rawCells_bar (cell s : List Char) :
    rawCells cell ('|' :: s) =
      if s = [] then some [cell.reverse] else (rawCells [] s).map (cell.reverse :: ·) := by
  cases s <;> simp [rawCells]

theorem rawCells_cons {c : Char} (hbar : c ≠ '|') (hbackslash : c ≠ '\\') (cell s : List Char) :
    rawCells cell (c :: s) = rawCells (c :: cell) s := by
  rw [rawCells]
  · intro hc
    exact absurd hc hbar
  · exact hbar
  · intro _ _ hc
    exact absurd hc hbackslash

theorem eq_nil_of_no_escape {c : Char} {s : List Char}
    (h : ∀ d rest, c = '\\' → s = d :: rest → False) (hc : c = '\\') : s = [] := by
  cases s with
  | nil => rfl
  | cons d rest => exact (h d rest hc rfl).elim

theorem rawCells_blank {blanks : List Char} (h : ∀ c ∈ blanks, Text.isBlank c = true)
    (cell s : List Char) : rawCells cell (blanks ++ s) = rawCells (blanks.reverse ++ cell) s := by
  induction blanks generalizing cell with
  | nil => rfl
  | cons c blanks ih =>
    obtain ⟨hc, hblanks⟩ := List.forall_mem_cons.mp h
    have hbar : c ≠ '|' := by
      rintro rfl
      exact absurd hc (by decide)
    have hbackslash : c ≠ '\\' := by
      rintro rfl
      exact absurd hc (by decide)
    rw [List.cons_append, rawCells_cons hbar hbackslash, ih hblanks, List.reverse_cons,
      List.append_assoc, List.singleton_append]

theorem rawCells_encode (text cell s : List Char) :
    rawCells cell (encode text ++ s) = rawCells ((encode text).reverse ++ cell) s := by
  fun_induction encode text generalizing cell with
  | case1 text ih | case2 text ih | case3 text ih => simp [rawCells, ih]
  | case4 c text hbar hbackslash hfeed ih =>
    simp [rawCells_cons hbar hbackslash, ih]
  | case5 => rfl

theorem rawCells_written (cell : Padded) (s : List Char) :
    rawCells [] (cell.written ++ s) = rawCells cell.written.reverse s := by
  have hbefore := List.all_eq_true.mp cell.blank_before
  have hafter := List.all_eq_true.mp cell.blank_after
  simp only [Padded.written, List.append_assoc, rawCells_blank hbefore, rawCells_encode,
    rawCells_blank hafter, List.reverse_append, List.append_nil]

theorem rawCells_render {cells : List Padded} (h : cells ≠ []) :
    rawCells [] (cells.flatMap fun cell => cell.written ++ ['|']) =
      some (cells.map Padded.written) := by
  induction cells with
  | nil => exact absurd rfl h
  | cons cell cells ih =>
    rw [List.flatMap_cons, List.append_assoc, rawCells_written, List.singleton_append,
      rawCells_bar, List.reverse_reverse]
    cases cells with
    | nil => rfl
    | cons next cells =>
      rw [if_neg (by simp), ih (by simp)]
      rfl

theorem split?_render_of_firm {cells : List Padded} (hne : cells ≠ [])
    (hfirm : ∀ cell ∈ cells, HasFirmEnds cell.text) :
    split? (render cells) = some (cells.map Padded.text) := by
  rw [render, split?, rawCells_render hne, Option.map_some, List.map_map]
  congr 1
  apply List.map_congr_left
  intro cell hcell
  rw [Function.comp_apply, cell.trim_written (hfirm cell hcell), decode_encode]

theorem isSome_rawCells_iff (cell s : List Char) :
    (rawCells cell s).isSome = true ↔ EndsInBareBar s := by
  fun_induction rawCells cell s with
  | case1 => simp [EndsInBareBar]
  | case2 cell => exact ⟨fun _ => ⟨[], rfl, rfl⟩, fun _ => rfl⟩
  | case3 cell s hne ih => rw [Option.isSome_map, ih, endsInBareBar_cons '|' s (absurd · (by decide)) fun _ => hne]
  | case4 cell c s ih => rw [ih, endsInBareBar_escape]
  | case5 cell c s hclosed hbar hescape ih =>
    rw [ih, endsInBareBar_cons c s (eq_nil_of_no_escape hescape) hclosed]

theorem length_of_rawCells {cell s : List Char} {cells : List (List Char)}
    (h : rawCells cell s = some cells) : cells.length = bareBars s := by
  fun_induction rawCells cell s generalizing cells with
  | case1 => cases h
  | case2 cell =>
    obtain rfl := Option.some.inj h
    rfl
  | case3 cell s hne ih =>
    obtain ⟨later, hlater, rfl⟩ := Option.map_eq_some_iff.mp h
    rw [List.length_cons, ih hlater, bareBars_cons '|' s (absurd · (by decide)), if_pos rfl]
  | case4 cell c s ih => rw [ih h, bareBars_escape]
  | case5 cell c s hclosed hbar hescape ih =>
    rw [ih h, bareBars_cons c s (eq_nil_of_no_escape hescape), if_neg hbar, Nat.add_zero]

theorem rawCells_ne_nil {cell s : List Char} {cells : List (List Char)}
    (h : rawCells cell s = some cells) : cells ≠ [] := by
  fun_induction rawCells cell s generalizing cells with
  | case1 => cases h
  | case2 cell =>
    obtain rfl := Option.some.inj h
    exact List.cons_ne_nil _ _
  | case3 cell s hne ih =>
    obtain ⟨later, -, rfl⟩ := Option.map_eq_some_iff.mp h
    exact List.cons_ne_nil _ _
  | case4 cell c s ih => exact ih h
  | case5 cell c s hclosed hbar hescape ih => exact ih h

end Split

section Edges

theorem head?_decode {s : List Char} (h : ∀ c, s.head? = some c → Text.isBlank c = false)
    (c : Char) : (decode s).head? = some c → Text.isBlank c = true → c = '\n' := by
  fun_cases decode s with
  | case1 s | case2 s =>
    rintro ⟨⟩ hblank
    exact absurd hblank (by decide)
  | case3 s =>
    rintro ⟨⟩ -
    rfl
  | case4 d s =>
    rintro ⟨⟩ hblank
    exact absurd hblank (by rw [h c rfl]; decide)
  | case5 => nofun

theorem eq_nil_of_decode {s : List Char} : decode s = [] → s = [] := by
  fun_cases decode s with
  | case1 | case2 | case3 | case4 => nofun
  | case5 => exact fun _ => rfl

theorem getLast?_decode {s : List Char} (h : ∀ c, s.getLast? = some c → Text.isBlank c = false)
    (c : Char) : (decode s).getLast? = some c → Text.isBlank c = true → c = '\n' := by
  have hcons {d : Char} {s : List Char} (hd : decode s = [] → Text.isBlank d = true → d = '\n')
      (ih : (decode s).getLast? = some c → Text.isBlank c = true → c = '\n') :
      (d :: decode s).getLast? = some c → Text.isBlank c = true → c = '\n' := by
    cases hs : (decode s).getLast? with
    | none =>
      simp only [List.getLast?_cons, hs]
      rintro ⟨⟩
      exact hd (List.getLast?_eq_none_iff.mp hs)
    | some last =>
      simp only [List.getLast?_cons, hs]
      rintro ⟨⟩
      exact ih hs
  have htail {d : Char} {s : List Char}
      (h : ∀ c, (d :: s).getLast? = some c → Text.isBlank c = false) (c : Char)
      (hc : s.getLast? = some c) : Text.isBlank c = false :=
    h c (by simp [List.getLast?_cons, hc])
  fun_induction decode s with
  | case1 s ih | case2 s ih => exact hcons (fun _ => by decide) (ih (htail (htail h)))
  | case3 s ih => exact hcons (fun _ _ => rfl) (ih (htail (htail h)))
  | case4 d s _ _ _ ih =>
    refine hcons (fun hs hblank => ?_) (ih (htail h))
    rw [eq_nil_of_decode hs] at h
    exact absurd hblank (by rw [h d rfl]; decide)
  | case5 => nofun

theorem hasFirmEnds_decode_trim (s : List Char) : HasFirmEnds (decode (Text.trim s)) where
  first := head?_decode fun _ => Text.isBlank_eq_false_of_head?_trim
  last := getLast?_decode fun _ => Text.isBlank_eq_false_of_getLast?_trim

end Edges

theorem isSome_split?_iff (s : List Char) :
    (split? s).isSome = true ↔ ∃ rest, s = '|' :: rest ∧ EndsInBareBar rest := by
  unfold split?
  split
  case h_1 rest =>
    rw [Option.isSome_map, isSome_rawCells_iff]
    constructor
    · exact fun h => ⟨rest, rfl, h⟩
    · rintro ⟨_, ⟨⟩, h⟩
      exact h
  case h_2 hbar =>
    constructor
    · nofun
    · rintro ⟨rest, rfl, -⟩
      exact absurd rfl (hbar rest)

theorem exists_of_split? {s : List Char} {cells : List (List Char)} (h : split? s = some cells) :
    ∃ rest raws, s = '|' :: rest ∧ rawCells [] rest = some raws ∧
      cells = raws.map fun raw => decode (Text.trim raw) := by
  unfold split? at h
  split at h
  case h_1 rest =>
    obtain ⟨raws, hraws, rfl⟩ := Option.map_eq_some_iff.mp h
    exact ⟨rest, raws, rfl, hraws, rfl⟩
  case h_2 => cases h

/-- A row that is written from cells with firm ends is split into them. A text is a row exactly if it
starts with a bar and ends in a bare one behind it; it has as many cells as there are bare bars behind
the first, their ends are firm, and they are what a row that is written from them is split into. -/
theorem split?_render :
    (∀ cells : List Padded, cells ≠ [] → (∀ cell ∈ cells, HasFirmEnds cell.text) →
      split? (render cells) = some (cells.map Padded.text)) ∧
    ∀ s, ((split? s).isSome = true ↔ ∃ rest, s = '|' :: rest ∧ EndsInBareBar rest) ∧
      ∀ cells, split? s = some cells →
        cells.length = bareBars s.tail ∧ (∀ cell ∈ cells, HasFirmEnds cell) ∧
          ∀ padded : List Padded, padded.map Padded.text = cells →
            split? (render padded) = some cells := by
  refine ⟨fun cells => split?_render_of_firm, fun s => ⟨isSome_split?_iff s, fun cells h => ?_⟩⟩
  obtain ⟨rest, raws, rfl, hraws, rfl⟩ := exists_of_split? h
  have hfirm : ∀ cell ∈ raws.map fun raw => decode (Text.trim raw), HasFirmEnds cell :=
    List.forall_mem_map.mpr fun raw _ => hasFirmEnds_decode_trim raw
  refine ⟨by rw [List.length_map, length_of_rawCells hraws, List.tail_cons], hfirm, ?_⟩
  intro padded hpadded
  have hne : padded ≠ [] := by
    rintro rfl
    obtain rfl : raws = [] := List.map_eq_nil_iff.mp hpadded.symm
    exact rawCells_ne_nil hraws rfl
  rw [← hpadded] at hfirm ⊢
  exact split?_render_of_firm hne (List.forall_mem_map.mp hfirm)

theorem split?_render_of_escapes :
    let cells : List Padded :=
      [{ text := ['a', '|', '\\'], after := ['\t', '\n'] }, { text := ['\n', ' ', 'b'], before := [] },
        { text := [], before := [], after := [] }]
    split? (render cells) = some (cells.map Padded.text) ∧
      render cells = "| a\\|\\\\\t\n|\\n b ||".toList := by
  intro cells
  exact ⟨split?_render.1 cells (by decide) (by decide), by decide⟩

end ScenarioAtlas.Row
