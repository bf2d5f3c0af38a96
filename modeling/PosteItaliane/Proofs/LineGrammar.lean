import PosteItaliane.Framework.Tokens
import PosteItaliane.Proofs.ConfigLoading
import Mathlib.Data.Int.Basic

/-!
# The line grammar of a configuration file

A reader that works on whole lines is set beside `load_config`, which works on the buffers
of at most 127 bytes that `fgets` fills. The two take the same from every line that is read
whole, and a file is loaded the same way exactly when its lines are.
-/

namespace PosteItaliane

open Framework

/-- The separators between a key and its value. -/
def isSeparator (c : Char) : Bool := c = ' ' || c = '=' || c = '\t'

/-- Key and value of a line of the grammar. -/
def referenceKeyValue (line : List Char) : Option (List Char × List Char) :=
  match tokens isSeparator (line.takeWhile (· ≠ '#')) with
  | key :: val :: _ => some (key, val)
  | _ => none

/-- The reader of whole lines: what the file means. -/
def referenceLoad (config : PosteConfig) (file : List Char) : PosteConfig :=
  (file.splitOn '\n').foldl
    (fun config line =>
      match referenceKeyValue line with
      | none => config
      | some (key, val) => applySetting config key val) config

/-- The assignments made by the buffers that a line is cut into. -/
def bufferSettings (line : List Char) : List (ConfigKey × ℤ) := (buffers line).filterMap setting

/-- The buffers of the line set what the line sets: no other field, and no other value last. -/
def ReadWhole (line : List Char) : Prop :=
  (∀ kv ∈ bufferSettings line, ∃ v, setting line = some (kv.1, v)) ∧
    (bufferSettings line).getLast? = setting line

theorem fgets_take (n : ℕ) (line rest : List Char) (hline : '\n' ∉ line)
    (hn : n ≤ line.length) : fgets n (line ++ rest) = (line.take n, line.drop n ++ rest) := by
  induction n generalizing line with
  | zero => simp [fgets]
  | succ n ih =>
    cases line with
    | nil => simp at hn
    | cons c line =>
      have hc : c ≠ '\n' := by
        intro h
        exact hline (by simp [h])
      have hrest := ih line (fun h => hline (by simp [h])) (by simpa using hn)
      simp [fgets, hc, hrest]

theorem fgets_line (n : ℕ) (line rest : List Char) (hline : '\n' ∉ line)
    (hn : line.length < n) : fgets n (line ++ '\n' :: rest) = (line ++ ['\n'], rest) := by
  induction n generalizing line with
  | zero => simp at hn
  | succ n ih =>
    cases line with
    | nil => simp [fgets]
    | cons c line =>
      have hc : c ≠ '\n' := by
        intro h
        exact hline (by simp [h])
      have hrest := ih line (fun h => hline (by simp [h])) (by simpa using hn)
      simp [fgets, hc, hrest]

theorem fgets_last (n : ℕ) (line : List Char) (hline : '\n' ∉ line)
    (hn : line.length < n) : fgets n line = (line, []) := by
  induction n generalizing line with
  | zero => simp at hn
  | succ n ih =>
    cases line with
    | nil => simp [fgets]
    | cons c line =>
      have hc : c ≠ '\n' := by
        intro h
        exact hline (by simp [h])
      have hrest := ih line (fun h => hline (by simp [h])) (by simpa using hn)
      simp [fgets, hc, hrest]

theorem buffers_eq (file : List Char) (hne : file ≠ []) :
    buffers file = (fgets 127 file).1 :: buffers (fgets 127 file).2 := by
  cases file with
  | nil => exact absurd rfl hne
  | cons c file =>
    rw [buffers]
    rfl

theorem buffers_long (line rest : List Char) (hline : '\n' ∉ line) (hlong : 127 ≤ line.length) :
    buffers (line ++ rest) = line.take 127 :: buffers (line.drop 127 ++ rest) := by
  have hne : line ++ rest ≠ [] := by
    intro h
    simp [(List.append_eq_nil_iff.1 h).1] at hlong
  rw [buffers_eq _ hne, fgets_take 127 line rest hline hlong]

theorem buffers_short (line : List Char) (hline : '\n' ∉ line) (hne : line ≠ [])
    (hshort : line.length < 127) : buffers line = [line] := by
  rw [buffers_eq line hne, fgets_last 127 line hline hshort]
  simp [buffers]

theorem buffers_line (line rest : List Char) (hline : '\n' ∉ line)
    (hshort : line.length < 127) :
    buffers (line ++ '\n' :: rest) = (line ++ ['\n']) :: buffers rest := by
  rw [buffers_eq _ (by simp), fgets_line 127 line rest hline hshort]

theorem keyValue_eq_tokens (line : List Char) :
    keyValue line =
      match tokens isDelimiter (stripComment (cString line)) with
      | key :: val :: _ => some (key, val)
      | _ => none := by
  have hstrtok : ∀ s, strtok s = nextToken isDelimiter s := by
    intro s
    unfold strtok nextToken
    cases s.dropWhile isDelimiter <;> rfl
  unfold keyValue
  rw [tokens_eq_nextToken]
  simp only [hstrtok]
  cases nextToken isDelimiter (stripComment (cString line)) with
  | none => rfl
  | some kr =>
    obtain ⟨key, rest⟩ := kr
    dsimp only
    rw [tokens_eq_nextToken]
    cases nextToken isDelimiter rest with
    | none => rfl
    | some vr => rfl

theorem takeWhile_concat (p : Char → Bool) (s : List Char) (c : Char) :
    (s ++ [c]).takeWhile p = s.takeWhile p ∨
      (s ++ [c]).takeWhile p = s.takeWhile p ++ [c] := by
  induction s with
  | nil => cases h : p c <;> simp [h]
  | cons d s ih =>
    cases h : p d with
    | true => simpa [h] using ih
    | false => simp [h]

theorem keyValue_newline (line : List Char) : keyValue (line ++ ['\n']) = keyValue line := by
  have htokens : tokens isDelimiter (stripComment (cString (line ++ ['\n']))) =
      tokens isDelimiter (stripComment (cString line)) := by
    have hcut : stripComment (cString (line ++ ['\n'])) = stripComment (cString line) ∨
        stripComment (cString (line ++ ['\n'])) = stripComment (cString line) ++ ['\n'] := by
      unfold stripComment cString
      rcases takeWhile_concat (· ≠ '\x00') line '\n' with h | h
      · exact Or.inl (by rw [h])
      · rw [h]
        exact takeWhile_concat _ _ _
    rcases hcut with hcut | hcut
    · rw [hcut]
    · rw [hcut, tokens_append_delimiter isDelimiter _ [] '\n' rfl, tokens_nil, List.append_nil]
  rw [keyValue_eq_tokens, keyValue_eq_tokens, htokens]

theorem setting_newline (line : List Char) : setting (line ++ ['\n']) = setting line := by
  unfold setting
  rw [keyValue_newline]

theorem referenceKeyValue_eq (line : List Char) (hline : '\n' ∉ line) (hzero : '\x00' ∉ line) :
    referenceKeyValue line = keyValue line := by
  have hstring : cString line = line := by
    apply List.takeWhile_eq_self_iff.2
    intro c hc
    have hne : c ≠ '\x00' := by
      rintro rfl
      exact hzero hc
    simpa using hne
  have htokens : tokens isSeparator (line.takeWhile (· ≠ '#')) =
      tokens isDelimiter (line.takeWhile (· ≠ '#')) := by
    apply tokens_congr
    intro c hc
    have hne : c ≠ '\n' := by
      rintro rfl
      exact hline ((List.takeWhile_prefix _).subset hc)
    simp [isSeparator, isDelimiter, hne]
  rw [keyValue_eq_tokens, hstring]
  unfold referenceKeyValue
  rw [htokens]
  rfl

theorem bufferSettings_line (line rest : List Char) (hline : '\n' ∉ line) :
    (buffers (line ++ '\n' :: rest)).filterMap setting =
      bufferSettings line ++ (buffers rest).filterMap setting := by
  induction hn : line.length using Nat.strong_induction_on generalizing line with
  | _ n ih =>
    subst hn
    rcases Nat.lt_or_ge line.length 127 with hshort | hlong
    · rw [buffers_line line rest hline hshort, List.filterMap_cons, setting_newline]
      by_cases hne : line = []
      · subst hne
        rw [show setting [] = none by decide]
        simp [bufferSettings, buffers]
      · unfold bufferSettings
        rw [buffers_short line hline hne hshort]
        cases h : setting line <;> simp [h]
    · have hdrop : (line.drop 127).length < line.length := by
        rw [List.length_drop]
        omega
      have hih := ih _ hdrop (line.drop 127) (fun h => hline (List.mem_of_mem_drop h)) rfl
      have hself := buffers_long line [] hline hlong
      rw [List.append_nil, List.append_nil] at hself
      rw [buffers_long line ('\n' :: rest) hline hlong, List.filterMap_cons]
      unfold bufferSettings at hih ⊢
      rw [hself, List.filterMap_cons, hih]
      cases setting (line.take 127) <;> rfl

theorem lines_induction {P : List Char → Prop} (one : ∀ line, '\n' ∉ line → P line)
    (more : ∀ line rest, '\n' ∉ line → P rest → P (line ++ '\n' :: rest))
    (file : List Char) : P file := by
  induction hn : file.length using Nat.strong_induction_on generalizing file with
  | _ n ih =>
    subst hn
    by_cases h : '\n' ∈ file
    · obtain ⟨line, rest, rfl, hline⟩ := List.eq_append_cons_of_mem h
      exact more line rest hline (ih rest.length (by simp; omega) rest rfl)
    · exact one file h

/-- `load_config` reads the file line by line, each line by its buffers. -/
theorem settings_by_line (file : List Char) :
    (buffers file).filterMap setting = (file.splitOn '\n').flatMap bufferSettings := by
  induction file using lines_induction with
  | one line hline =>
    rw [List.splitOn_eq_singleton hline]
    simp [bufferSettings]
  | more line rest hline ih =>
    rw [List.splitOn_append_cons_self_of_not_mem hline, List.flatMap_cons,
      bufferSettings_line line rest hline, ih]

theorem splitOn_line (file line : List Char) (h : line ∈ file.splitOn '\n') :
    '\n' ∉ line ∧ ∀ c ∈ line, c ∈ file := by
  induction file using lines_induction with
  | one file hfile =>
    rw [List.splitOn_eq_singleton hfile, List.mem_singleton] at h
    subst h
    exact ⟨hfile, fun c hc => hc⟩
  | more first rest hfirst ih =>
    rw [List.splitOn_append_cons_self_of_not_mem hfirst, List.mem_cons] at h
    rcases h with rfl | h
    · exact ⟨hfirst, fun c hc => by simp [hc]⟩
    · obtain ⟨hline, hmem⟩ := ih h
      exact ⟨hline, fun c hc => by simp [hmem c hc]⟩

theorem mem_line (file : List Char) (c : Char) (hc : c ∈ file) (hne : c ≠ '\n') :
    ∃ line ∈ file.splitOn '\n', c ∈ line := by
  induction file using lines_induction with
  | one file hfile => exact ⟨file, by simp [List.splitOn_eq_singleton hfile], hc⟩
  | more first rest hfirst ih =>
    rw [List.splitOn_append_cons_self_of_not_mem hfirst]
    rcases List.mem_append.1 hc with hc | hc
    · exact ⟨first, by simp, hc⟩
    · obtain ⟨line, hline, hmem⟩ := ih ((List.mem_cons.1 hc).resolve_left hne)
      exact ⟨line, by simp [hline], hmem⟩

theorem referenceLoad_eq (config : PosteConfig) (file : List Char) (hzero : '\x00' ∉ file) :
    referenceLoad config file =
      configFields.assign config ((file.splitOn '\n').filterMap setting) := by
  rw [← applyLines_eq]
  unfold referenceLoad
  apply List.foldl_ext
  intro config line hline
  obtain ⟨hnewline, hmem⟩ := splitOn_line file line hline
  rw [referenceKeyValue_eq line hnewline fun h => hzero (hmem _ h)]
  rfl

theorem readWhole_iff (line : List Char) :
    ReadWhole line ↔
      ∀ k, Fields.lastFor k (bufferSettings line) = Fields.lastFor k (setting line).toList := by
  unfold ReadWhole
  cases hs : setting line with
  | none =>
    rw [Option.toList_none, Fields.lastFor_eq_nil_iff]
    constructor
    · intro h
      exact List.getLast?_eq_none_iff.1 h.2
    · intro h
      simp [h]
  | some kv₀ =>
    rw [Option.toList_some, Fields.lastFor_eq_single_iff]
    constructor
    · intro h
      refine ⟨fun kv hkv => ?_, h.2⟩
      obtain ⟨v, hv⟩ := h.1 kv hkv
      exact (congrArg Prod.fst (Option.some.inj hv)).symm
    · intro h
      refine ⟨fun kv hkv => ⟨kv₀.2, ?_⟩, h.2⟩
      rw [h.1 kv hkv]

theorem readWhole_of_short (line : List Char) (hline : '\n' ∉ line)
    (hshort : line.length ≤ 127) : ReadWhole line := by
  have hsettings : bufferSettings line = (setting line).toList := by
    unfold bufferSettings
    by_cases hne : line = []
    · subst hne
      rw [show setting [] = none by decide]
      simp [buffers]
    · have hone : buffers line = [line] := by
        rcases Nat.lt_or_ge line.length 127 with hlt | hge
        · exact buffers_short line hline hne hlt
        · have hlong := buffers_long line [] hline hge
          rw [List.append_nil, List.take_of_length_le hshort,
            List.drop_eq_nil_of_le hshort] at hlong
          simpa [buffers] using hlong
      rw [hone]
      cases h : setting line <;> simp [h]
  rw [readWhole_iff, hsettings]
  exact fun k => rfl

theorem loadConfig_reference_iff (file : List Char) (hzero : '\x00' ∉ file) :
    (∀ config, loadConfig config file = referenceLoad config file) ↔
      ∀ k, Fields.lastFor k ((file.splitOn '\n').flatMap bufferSettings) =
        Fields.lastFor k ((file.splitOn '\n').filterMap setting) := by
  have hne : Nonempty PosteConfig := ⟨defaultConfig⟩
  rw [← configFields.assign_eq_iff, ← settings_by_line]
  constructor
  · intro h config
    rw [← loadConfig_eq, h config, referenceLoad_eq config file hzero]
  · intro h config
    rw [loadConfig_eq, h config, referenceLoad_eq config file hzero]

theorem lastFor_readWhole (k : ConfigKey) (lines : List (List Char))
    (h : ∀ line ∈ lines, ReadWhole line) :
    Fields.lastFor k (lines.flatMap bufferSettings) =
      Fields.lastFor k (lines.filterMap setting) := by
  induction lines with
  | nil => rfl
  | cons line lines ih =>
    have hline := (readWhole_iff line).1 (h line (by simp)) k
    have hsplit : (line :: lines).filterMap setting =
        (setting line).toList ++ lines.filterMap setting := by
      cases hs : setting line <;> simp [hs]
    rw [List.flatMap_cons, hsplit, Fields.lastFor_append, Fields.lastFor_append, hline,
      ih fun l hl => h l (by simp [hl])]

/-- The files over a set of lines are all loaded as the grammar says exactly when each of the
lines is read whole. -/
theorem loadConfig_lines_iff (L : Set (List Char))
    (hL : ∀ line ∈ L, '\x00' ∉ line ∧ '\n' ∉ line) :
    (∀ file : List Char, (∀ line ∈ file.splitOn '\n', line ∈ L) →
        ∀ config, loadConfig config file = referenceLoad config file) ↔
      ∀ line ∈ L, ReadWhole line := by
  have hzero : ∀ file : List Char, (∀ line ∈ file.splitOn '\n', line ∈ L) → '\x00' ∉ file := by
    intro file hlines hmem
    obtain ⟨line, hline, hc⟩ := mem_line file '\x00' hmem (by decide)
    exact (hL line (hlines line hline)).1 hc
  constructor
  · intro h line hline
    obtain ⟨hz, hn⟩ := hL line hline
    have hsplit : line.splitOn '\n' = [line] := List.splitOn_eq_singleton hn
    have hload := h line (by simpa [hsplit] using hline)
    rw [readWhole_iff]
    intro k
    have hk := (loadConfig_reference_iff line hz).1 hload k
    rw [hsplit, List.flatMap_singleton] at hk
    rw [hk]
    cases hs : setting line <;> simp [hs]
  · intro h file hlines
    rw [loadConfig_reference_iff file (hzero file hlines)]
    exact fun k => lastFor_readWhole k _ fun line hline => h line (hlines line hline)

/-- A file is loaded as the grammar says exactly when, for every field, the last buffer and
the last line that set it agree; and it is so with all files made of its lines exactly when
each of the lines is read whole. -/
theorem loadConfig_lineGrammar (file : List Char) (hzero : '\x00' ∉ file) :
    ((∀ config, loadConfig config file = referenceLoad config file) ↔
      ∀ k, Fields.lastFor k ((file.splitOn '\n').flatMap bufferSettings) =
        Fields.lastFor k ((file.splitOn '\n').filterMap setting)) ∧
    ((∀ file' : List Char, (∀ line ∈ file'.splitOn '\n', line ∈ file.splitOn '\n') →
        ∀ config, loadConfig config file' = referenceLoad config file') ↔
      ∀ line ∈ file.splitOn '\n', ReadWhole line) := by
  refine ⟨loadConfig_reference_iff file hzero, ?_⟩
  apply loadConfig_lines_iff {line | line ∈ file.splitOn '\n'}
  intro line hline
  obtain ⟨hnewline, hmem⟩ := splitOn_line file line hline
  exact ⟨fun h => hzero (hmem _ h), hnewline⟩

theorem loadConfig_lineGrammar_twoLines :
    loadConfig defaultConfig "num_users = 7 # people\nsim_duration=2".toList =
      referenceLoad defaultConfig "num_users = 7 # people\nsim_duration=2".toList := by
  have hall := loadConfig_lineGrammar "num_users = 7 # people\nsim_duration=2".toList (by decide)
  refine hall.2.mpr ?_ _ (fun line hline => hline) defaultConfig
  intro line hline
  have hlines : line = "num_users = 7 # people".toList ∨ line = "sim_duration=2".toList := by
    simpa [List.splitOn_cons_eq_if_modifyHead] using hline
  rcases hlines with rfl | rfl
  · exact readWhole_of_short _ (by decide) (by decide)
  · exact readWhole_of_short _ (by decide) (by decide)

/-- A comment of 127 bytes and more: what stands behind them is read as a line. -/
def longComment : List Char := '#' :: List.replicate 126 '-' ++ "num_users=99".toList

theorem longComment_sets_numUsers :
    (loadConfig defaultConfig longComment).numUsers = 99 ∧
      (referenceLoad defaultConfig longComment).numUsers = 5 := by
  have hbuffers : buffers longComment =
      ['#' :: List.replicate 126 '-', "num_users=99".toList] := by
    have hlong := buffers_long ('#' :: List.replicate 126 '-') "num_users=99".toList
      (by simp) (by simp)
    rw [List.take_of_length_le (by simp), List.drop_eq_nil_of_le (by simp), List.nil_append,
      buffers_short "num_users=99".toList (by decide) (by decide) (by decide)] at hlong
    exact hlong
  have hlines : longComment.splitOn '\n' = [longComment] :=
    List.splitOn_eq_singleton (by simp [longComment])
  constructor
  · unfold loadConfig
    rw [hbuffers]
    decide
  · unfold referenceLoad
    rw [hlines]
    decide

theorem loadConfig_lineGrammar_longComment :
    ¬ ∀ file : List Char, '\x00' ∉ file →
      loadConfig defaultConfig file = referenceLoad defaultConfig file := by
  intro h
  have hsets := longComment_sets_numUsers
  rw [h longComment (by simp [longComment])] at hsets
  exact absurd (hsets.1.symm.trans hsets.2) (by decide)

end PosteItaliane
