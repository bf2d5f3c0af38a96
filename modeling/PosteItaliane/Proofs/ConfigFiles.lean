import PosteItaliane.Proofs.Decimals
import PosteItaliane.Proofs.LineGrammar

/-!
# What a configuration file can say

A list of assignments is written as a file with one line for each of them, and `load_config`
reads exactly these assignments back. So every file has a canonical one, with one line for
each field it sets, and a configuration is loaded from some file exactly when the fields in
which it differs from the present one hold values that the branches take over.
-/

namespace PosteItaliane

open Framework

/-- The largest value that the conversion of the key returns. -/
def ConfigKey.most : ConfigKey → ℤ
  | .minuteDuration => 2 ^ 63 - 1
  | _ => 2 ^ 31 - 1

/-- A value that a line can give to the field. -/
def ConfigKey.Settable (k : ConfigKey) (v : ℤ) : Prop := k.least ≤ v ∧ v ≤ k.most

instance (k : ConfigKey) (v : ℤ) : Decidable (k.Settable v) :=
  inferInstanceAs (Decidable (_ ∧ _))

/-- The line of an assignment. -/
def settingLine (kv : ConfigKey × ℤ) : List Char := kv.1.name.toList ++ '=' :: decimalText kv.2

/-- A file with a line for each assignment. -/
def settingsText (kvs : List (ConfigKey × ℤ)) : List Char :=
  kvs.flatMap fun kv => settingLine kv ++ ['\n']

/-- The file that sets the same fields to the same values, one line for each. -/
def canonicalFile (file : List Char) : List Char :=
  settingsText (Fields.lasts ConfigKey.all ((buffers file).filterMap setting))

theorem least_nonneg (k : ConfigKey) : 0 ≤ k.least := by
  cases k <;> decide

theorem convert_decimalText {k : ConfigKey} {v : ℤ} (h : k.Settable v) :
    k.convert (decimalText v) = v := by
  obtain ⟨hleast, hmost⟩ := h
  have hnonneg := (least_nonneg k).trans hleast
  cases k
  case minuteDuration =>
    simp only [ConfigKey.most] at hmost
    exact atol_decimalText (by omega) (by omega)
  all_goals
    simp only [ConfigKey.most] at hmost
    exact atoi_decimalText (by omega) (by omega)

theorem convert_le_most (k : ConfigKey) (val : List Char) : k.convert val ≤ k.most := by
  have hint : atoi val ≤ 2 ^ 31 - 1 := by
    have hlt := Int.bmod_lt (x := atol val) (m := 2 ^ 32) (by decide)
    rw [atoi]
    omega
  cases k
  case minuteDuration => exact max_le (by decide) (min_le_right _ _)
  all_goals exact hint

theorem settable_of_setting {line : List Char} {kv : ConfigKey × ℤ}
    (h : setting line = some kv) : kv.1.Settable kv.2 := by
  obtain ⟨val, -, hval, hle⟩ := (setting_eq_some line kv.1 kv.2).1 h
  exact ⟨hle, hval ▸ convert_le_most kv.1 val⟩

theorem name_plain (k : ConfigKey) :
    ∀ c ∈ k.name.toList, isDelimiter c = false ∧ c ≠ '#' ∧ c ≠ '\x00' := by
  have hall : k.name.toList.all (fun c => !isDelimiter c && c != '#' && c != '\x00') = true := by
    cases k <;> rfl
  simpa [and_assoc] using hall

theorem decimalText_plain (v : ℤ) :
    ∀ c ∈ decimalText v, isDelimiter c = false ∧ c ≠ '#' ∧ c ≠ '\x00' := by
  intro c hc
  rcases mem_decimalText hc with rfl | hdigit
  · decide
  · refine ⟨?_, ?_, ?_⟩
    · by_contra hdelimiter
      rw [Bool.not_eq_false] at hdelimiter
      simp only [isDelimiter, Bool.or_eq_true, decide_eq_true_eq] at hdelimiter
      rcases hdelimiter with ((rfl | rfl) | rfl) | rfl <;> exact absurd hdigit (by decide)
    · rintro rfl
      exact absurd hdigit (by decide)
    · rintro rfl
      exact absurd hdigit (by decide)

theorem settingLine_uncut (kv : ConfigKey × ℤ) :
    stripComment (cString (settingLine kv)) = settingLine kv := by
  have hplain : ∀ c ∈ settingLine kv, c ≠ '#' ∧ c ≠ '\x00' := by
    intro c hc
    rcases List.mem_append.1 hc with hc | hc
    · exact (name_plain kv.1 c hc).2
    · rcases List.mem_cons.1 hc with rfl | hc
      · decide
      · exact (decimalText_plain kv.2 c hc).2
  have hzero : cString (settingLine kv) = settingLine kv :=
    List.takeWhile_eq_self_iff.2 fun c hc => by simpa using (hplain c hc).2
  rw [hzero]
  exact List.takeWhile_eq_self_iff.2 fun c hc => by simpa using (hplain c hc).1

theorem keyValue_settingLine (kv : ConfigKey × ℤ) :
    keyValue (settingLine kv) = some (kv.1.name.toList, decimalText kv.2) := by
  have hname : tokens isDelimiter kv.1.name.toList = [kv.1.name.toList] :=
    tokens_of_word _ _ (by cases kv.1 <;> decide) fun c hc => (name_plain kv.1 c hc).1
  have hvalue : tokens isDelimiter (decimalText kv.2) = [decimalText kv.2] :=
    tokens_of_word _ _ (decimalText_ne_nil _) fun c hc => (decimalText_plain kv.2 c hc).1
  rw [keyValue_eq_tokens, settingLine_uncut, settingLine,
    tokens_append_delimiter isDelimiter _ _ '=' rfl, hname, hvalue]
  rfl

theorem setting_settingLine {kv : ConfigKey × ℤ} (h : kv.1.Settable kv.2) :
    setting (settingLine kv) = some kv := by
  rw [setting_eq_some]
  exact ⟨decimalText kv.2, keyValue_settingLine kv, convert_decimalText h, h.1⟩

theorem settingLine_short {kv : ConfigKey × ℤ} (h : kv.1.Settable kv.2) :
    '\n' ∉ settingLine kv ∧ (settingLine kv).length < 127 := by
  have hname : kv.1.name.toList.length ≤ 18 := by cases kv.1 <;> decide
  have hmost : kv.1.most < 10 ^ 20 := by cases kv.1 <;> decide
  have hvalue : (decimalText kv.2).length ≤ 20 :=
    length_decimalText_le ((least_nonneg _).trans h.1) (by decide) (h.2.trans_lt hmost)
  constructor
  · rw [settingLine, List.mem_append, List.mem_cons]
    rintro (hc | hc | hc)
    · exact absurd (name_plain kv.1 _ hc).1 (by decide)
    · exact absurd hc (by decide)
    · exact absurd (decimalText_plain kv.2 _ hc).1 (by decide)
  · simp only [settingLine, List.length_append, List.length_cons]
    omega

theorem settings_settingsText {kvs : List (ConfigKey × ℤ)}
    (h : ∀ kv ∈ kvs, kv.1.Settable kv.2) :
    (buffers (settingsText kvs)).filterMap setting = kvs := by
  induction kvs with
  | nil => simp [settingsText, buffers]
  | cons kv kvs ih =>
    have hkv := h kv List.mem_cons_self
    obtain ⟨hnewline, hshort⟩ := settingLine_short hkv
    have hrest := ih fun kv' hkv' => h kv' (List.mem_cons_of_mem kv hkv')
    rw [settingsText, List.flatMap_cons, ← settingsText, List.append_assoc, List.singleton_append,
      buffers_line _ _ hnewline hshort, List.filterMap_cons, setting_newline,
      setting_settingLine hkv, hrest]

theorem loadConfig_settingsText (config : PosteConfig) {kvs : List (ConfigKey × ℤ)}
    (h : ∀ kv ∈ kvs, kv.1.Settable kv.2) :
    loadConfig config (settingsText kvs) = configFields.assign config kvs := by
  rw [loadConfig_eq, settings_settingsText h]

theorem settable_of_mem_settings {file : List Char} {kv : ConfigKey × ℤ}
    (h : kv ∈ (buffers file).filterMap setting) : kv.1.Settable kv.2 := by
  obtain ⟨line, -, hline⟩ := List.mem_filterMap.1 h
  exact settable_of_setting hline

theorem settings_canonicalFile (file : List Char) :
    (buffers (canonicalFile file)).filterMap setting =
      Fields.lasts ConfigKey.all ((buffers file).filterMap setting) :=
  settings_settingsText fun _ hkv =>
    settable_of_mem_settings (Fields.mem_of_lastFor (Fields.mem_lasts hkv))

theorem loadConfig_canonicalFile (config : PosteConfig) (file : List Char) :
    loadConfig config (canonicalFile file) = loadConfig config file := by
  rw [loadConfig_eq, loadConfig_eq, settings_canonicalFile]
  apply configFields.ext
  intro k
  rw [Fields.get_assign, Fields.get_assign, Fields.lastFor_lasts _ _ k (ConfigKey.mem_all k)]

theorem settings_append (file rest : List Char) :
    (buffers (file ++ '\n' :: rest)).filterMap setting =
      (buffers file).filterMap setting ++ (buffers rest).filterMap setting := by
  rw [settings_by_line, settings_by_line, settings_by_line, List.splitOn_append_cons_self,
    List.flatMap_append]

/-- The canonical file loads like the file it is made from. Two files have the same one exactly
when they load alike into every configuration, and a file behind another is loaded after it. -/
theorem canonicalFile_spec :
    (∀ (config : PosteConfig) (file : List Char),
      loadConfig config (canonicalFile file) = loadConfig config file) ∧
    (∀ file other : List Char, canonicalFile file = canonicalFile other ↔
      ∀ config, loadConfig config file = loadConfig config other) ∧
    (∀ (config : PosteConfig) (file rest : List Char),
      loadConfig config (file ++ '\n' :: rest) = loadConfig (loadConfig config file) rest) := by
  refine ⟨loadConfig_canonicalFile, fun file other => ⟨?_, ?_⟩, ?_⟩
  · intro h config
    rw [← loadConfig_canonicalFile config file, h, loadConfig_canonicalFile]
  · intro h
    have hne : Nonempty PosteConfig := ⟨defaultConfig⟩
    simp only [loadConfig_eq] at h
    have hlast := (configFields.assign_eq_iff _ _).1 h
    simp only [canonicalFile, Fields.lasts, hlast]
  · intro config file rest
    simp only [loadConfig_eq, settings_append, Fields.assign_append]

/-- The assignments to the fields of a configuration that a file can set. -/
def settableFields (config : PosteConfig) : List (ConfigKey × ℤ) :=
  (ConfigKey.all.map fun k => (k, config.get k)).filter fun kv => kv.1.Settable kv.2

theorem mem_settableFields (config : PosteConfig) (kv : ConfigKey × ℤ) :
    kv ∈ settableFields config ↔ kv.2 = config.get kv.1 ∧ kv.1.Settable kv.2 := by
  rw [settableFields, List.mem_filter, List.mem_map, decide_eq_true_eq]
  refine and_congr_left fun _ => ⟨?_, ?_⟩
  · rintro ⟨k, -, rfl⟩
    rfl
  · intro h
    exact ⟨kv.1, ConfigKey.mem_all kv.1, Prod.ext rfl h.symm⟩

/-- From a configuration a file can reach exactly those that differ from it in fields with
settable values only. -/
theorem loadable_iff (config target : PosteConfig) :
    (∃ file, loadConfig config file = target) ↔
      ∀ k, target.get k = config.get k ∨ k.Settable (target.get k) := by
  constructor
  · rintro ⟨file, rfl⟩ k
    show configFields.get _ k = _ ∨ k.Settable (configFields.get _ k)
    rw [loadConfig_eq, Fields.get_assign]
    cases hlast : Fields.lastFor k ((buffers file).filterMap setting) with
    | none => exact Or.inl rfl
    | some v => exact Or.inr (settable_of_mem_settings (Fields.mem_of_lastFor hlast))
  · intro h
    refine ⟨settingsText (settableFields target), ?_⟩
    rw [loadConfig_settingsText config fun kv hkv => ((mem_settableFields target kv).1 hkv).2]
    apply configFields.ext
    intro k
    rw [Fields.get_assign]
    cases hlast : Fields.lastFor k (settableFields target) with
    | some v => exact ((mem_settableFields target _).1 (Fields.mem_of_lastFor hlast)).1
    | none =>
      -- no line for this field, so it is one in which the two agree
      rcases h k with heq | hsettable
      · exact heq.symm
      · have hmem := (mem_settableFields target (k, target.get k)).2 ⟨rfl, hsettable⟩
        exact absurd rfl ((Fields.lastFor_eq_none k _).1 hlast _ hmem)

end PosteItaliane
