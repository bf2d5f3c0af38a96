import PosteItaliane.Model.LoadConfig

/-!
# What a loaded configuration holds

The twelve branches of `load_config` differ in the key, the conversion and the smallest
accepted value only, so the loop is a list of assignments to the fields of `g_config`, and
each field ends with the last value assigned to it.
-/

namespace PosteItaliane

open Framework

/-- The fields of `g_config`, which are the keys of a configuration file. -/
inductive ConfigKey where
  | numOperators | numUsers | numWorkerSeats | simDuration | pServMin | pServMax
  | minuteDuration | workerShiftOpen | workerShiftClose | explodeMax | maxNRequests | nofPause
  deriving DecidableEq

namespace ConfigKey

def all : List ConfigKey :=
  [numOperators, numUsers, numWorkerSeats, simDuration, pServMin, pServMax, minuteDuration,
    workerShiftOpen, workerShiftClose, explodeMax, maxNRequests, nofPause]

def name : ConfigKey → String
  | numOperators => "num_operators"
  | numUsers => "num_users"
  | numWorkerSeats => "num_worker_seats"
  | simDuration => "sim_duration"
  | pServMin => "p_serv_min"
  | pServMax => "p_serv_max"
  | minuteDuration => "minute_duration"
  | workerShiftOpen => "worker_shift_open"
  | workerShiftClose => "worker_shift_close"
  | explodeMax => "explode_max"
  | maxNRequests => "max_n_requests"
  | nofPause => "nof_pause"

def convert : ConfigKey → List Char → ℤ
  | minuteDuration => atol
  | _ => atoi

/-- The smallest value that the branch of the key takes over. -/
def least : ConfigKey → ℤ
  | pServMin | pServMax | workerShiftOpen | workerShiftClose | explodeMax => 0
  | _ => 1

/-- The key that a token names. -/
def ofName (key : List Char) : Option ConfigKey := all.find? fun k => k.name.toList = key

theorem mem_all (k : ConfigKey) : k ∈ all := by
  cases k <;> simp [all]

theorem name_injective : Function.Injective fun k : ConfigKey => k.name.toList := by
  intro j k h
  have hall : ∀ j ∈ all, ∀ k ∈ all, j.name.toList = k.name.toList → j = k := by decide
  exact hall j (mem_all j) k (mem_all k) h

theorem ofName_eq_some (key : List Char) (k : ConfigKey) :
    ofName key = some k ↔ k.name.toList = key := by
  constructor
  · intro h
    simpa using List.find?_some h
  · intro h
    cases hf : ofName key with
    | none => exact absurd h (by simpa using List.find?_eq_none.1 hf k (mem_all k))
    | some j =>
      have hj : j.name.toList = key := by simpa using List.find?_some hf
      exact congrArg some (name_injective (hj.trans h.symm))

end ConfigKey

namespace PosteConfig

def get (config : PosteConfig) : ConfigKey → ℤ
  | .numOperators => config.numOperators
  | .numUsers => config.numUsers
  | .numWorkerSeats => config.numWorkerSeats
  | .simDuration => config.simDuration
  | .pServMin => config.pServMin
  | .pServMax => config.pServMax
  | .minuteDuration => config.minuteDuration
  | .workerShiftOpen => config.workerShiftOpen
  | .workerShiftClose => config.workerShiftClose
  | .explodeMax => config.explodeMax
  | .maxNRequests => config.maxNRequests
  | .nofPause => config.nofPause

def set (config : PosteConfig) (k : ConfigKey) (v : ℤ) : PosteConfig :=
  match k with
  | .numOperators => { config with numOperators := v }
  | .numUsers => { config with numUsers := v }
  | .numWorkerSeats => { config with numWorkerSeats := v }
  | .simDuration => { config with simDuration := v }
  | .pServMin => { config with pServMin := v }
  | .pServMax => { config with pServMax := v }
  | .minuteDuration => { config with minuteDuration := v }
  | .workerShiftOpen => { config with workerShiftOpen := v }
  | .workerShiftClose => { config with workerShiftClose := v }
  | .explodeMax => { config with explodeMax := v }
  | .maxNRequests => { config with maxNRequests := v }
  | .nofPause => { config with nofPause := v }

end PosteConfig

/-- `g_config` as a record of the library. -/
def configFields : Fields PosteConfig ConfigKey ℤ where
  get := PosteConfig.get
  set := PosteConfig.set
  get_set_same := by
    intro config k v
    cases k <;> rfl
  get_set_other := by
    intro config k v k' hk
    cases k <;> cases k' <;> first | rfl | exact absurd rfl hk
  ext := by
    intro c d h
    obtain ⟨_, _, _, _, _, _, _, _, _, _, _, _⟩ := c
    obtain ⟨_, _, _, _, _, _, _, _, _, _, _, _⟩ := d
    simp only [PosteConfig.mk.injEq]
    exact ⟨h .numOperators, h .numUsers, h .numWorkerSeats, h .simDuration, h .pServMin,
      h .pServMax, h .minuteDuration, h .workerShiftOpen, h .workerShiftClose, h .explodeMax,
      h .maxNRequests, h .nofPause⟩

/-- The assignment that a line makes, if any. -/
def setting (line : List Char) : Option (ConfigKey × ℤ) :=
  (keyValue line).bind fun kv =>
    (ConfigKey.ofName kv.1).bind fun k =>
      if k.least ≤ k.convert kv.2 then some (k, k.convert kv.2) else none

theorem setting_eq_some (line : List Char) (k : ConfigKey) (v : ℤ) :
    setting line = some (k, v) ↔
      ∃ val, keyValue line = some (k.name.toList, val) ∧ k.convert val = v ∧ k.least ≤ v := by
  simp only [setting, Option.bind_eq_some_iff, ConfigKey.ofName_eq_some]
  constructor
  · intro h
    obtain ⟨⟨key, val⟩, hkv, j, rfl, hv⟩ := h
    split at hv
    · obtain ⟨rfl, rfl⟩ := Prod.mk.inj (Option.some.inj hv)
      exact ⟨val, hkv, rfl, ‹_›⟩
    · exact absurd hv (by simp)
  · intro h
    obtain ⟨val, hkv, rfl, hle⟩ := h
    exact ⟨_, hkv, k, rfl, if_pos hle⟩

theorem applySetting_name (config : PosteConfig) (k : ConfigKey) (val : List Char) :
    applySetting config k.name.toList val =
      if k.least ≤ k.convert val then config.set k (k.convert val) else config := by
  have hone : ∀ v : ℤ, 1 ≤ v ↔ 0 < v := by
    intro v
    omega
  cases k <;> simp [applySetting, ConfigKey.name, ConfigKey.least, ConfigKey.convert,
    PosteConfig.set, hone] <;> rfl

theorem applySetting_unknown (config : PosteConfig) (key val : List Char)
    (hkey : ConfigKey.ofName key = none) : applySetting config key val = config := by
  have hne : ∀ k : ConfigKey, key ≠ k.name.toList := by
    intro k h
    rw [(ConfigKey.ofName_eq_some key k).2 h.symm] at hkey
    cases hkey
  have hskip : ∀ (k : ConfigKey) (c d : PosteConfig),
      (if key = k.name.toList then c else d) = d := fun k _ _ => if_neg (hne k)
  exact (hskip .numOperators _ _).trans <| (hskip .numUsers _ _).trans <|
    (hskip .numWorkerSeats _ _).trans <| (hskip .simDuration _ _).trans <|
    (hskip .pServMin _ _).trans <| (hskip .pServMax _ _).trans <|
    (hskip .minuteDuration _ _).trans <| (hskip .workerShiftOpen _ _).trans <|
    (hskip .workerShiftClose _ _).trans <| (hskip .explodeMax _ _).trans <|
    (hskip .maxNRequests _ _).trans (hskip .nofPause _ _)

theorem applyLine_eq (config : PosteConfig) (line : List Char) :
    applyLine config line = configFields.assign config (setting line).toList := by
  unfold applyLine setting
  cases hkv : keyValue line with
  | none => rfl
  | some kv =>
    obtain ⟨key, val⟩ := kv
    cases hk : ConfigKey.ofName key with
    | none => simp [hk, applySetting_unknown config key val hk]
    | some k =>
      have hname : k.name.toList = key := (ConfigKey.ofName_eq_some key k).1 hk
      subst hname
      simp only [Option.bind_some, hk, applySetting_name]
      split <;> rfl

/-- A sequence of lines is the list of the assignments they make. -/
theorem applyLines_eq (config : PosteConfig) (lines : List (List Char)) :
    lines.foldl applyLine config = configFields.assign config (lines.filterMap setting) := by
  induction lines generalizing config with
  | nil => rfl
  | cons line lines ih =>
    rw [List.foldl_cons, ih, applyLine_eq, ← Fields.assign_append]
    congr 1
    cases h : setting line <;> simp [h]

theorem loadConfig_eq (config : PosteConfig) (file : List Char) :
    loadConfig config file = configFields.assign config ((buffers file).filterMap setting) :=
  applyLines_eq config (buffers file)

/-- The value that a line gives to a field: its first token is the key, and its second
converts to a number that the branch takes over. -/
def ConfigKey.acceptable (k : ConfigKey) (line : List Char) : Option ℤ :=
  match keyValue line with
  | none => none
  | some (key, val) =>
    if key = k.name.toList ∧ k.least ≤ k.convert val then some (k.convert val) else none

/-- The first token of a line. -/
def lineKey (line : List Char) : Option (List Char) :=
  (strtok (stripComment (cString line))).map Prod.fst

/-- The values that `config.h` takes for granted. -/
def PosteConfig.Accepted (config : PosteConfig) : Prop :=
  0 < config.numOperators ∧ 0 < config.numUsers ∧ 0 < config.numWorkerSeats ∧
    0 < config.simDuration ∧ 0 ≤ config.pServMin ∧ 0 ≤ config.pServMax ∧
    0 < config.minuteDuration ∧ 0 ≤ config.workerShiftOpen ∧ 0 ≤ config.workerShiftClose ∧
    0 ≤ config.explodeMax ∧ 0 < config.maxNRequests ∧ 0 < config.nofPause

theorem acceptable_eq_some (k : ConfigKey) (line : List Char) (v : ℤ) :
    k.acceptable line = some v ↔ setting line = some (k, v) := by
  rw [setting_eq_some]
  unfold ConfigKey.acceptable
  cases keyValue line with
  | none => simp
  | some kv =>
    obtain ⟨key, val⟩ := kv
    simp only [Option.ite_none_right_eq_some, Option.some.injEq, Prod.mk.injEq]
    constructor
    · intro h
      obtain ⟨⟨rfl, hle⟩, rfl⟩ := h
      exact ⟨val, ⟨rfl, rfl⟩, rfl, hle⟩
    · intro h
      obtain ⟨w, ⟨rfl, rfl⟩, rfl, hle⟩ := h
      exact ⟨⟨rfl, hle⟩, rfl⟩

theorem lastFor_settings (k : ConfigKey) (lines : List (List Char)) :
    Fields.lastFor k (lines.filterMap setting) = (lines.filterMap k.acceptable).getLast? := by
  have hmap : ((lines.filterMap setting).filter fun kv => kv.1 = k).map (·.2) =
      lines.filterMap k.acceptable := by
    induction lines with
    | nil => rfl
    | cons line lines ih =>
      cases hs : setting line with
      | none =>
        have hk : k.acceptable line = none := by
          cases hk : k.acceptable line with
          | none => rfl
          | some v =>
            rw [(acceptable_eq_some k line v).1 hk] at hs
            cases hs
        simp [hs, hk, ih]
      | some kv =>
        obtain ⟨j, v⟩ := kv
        by_cases hj : j = k
        · subst hj
          have hk := (acceptable_eq_some j line v).2 hs
          simp [hs, hk, ih]
        · have hk : k.acceptable line = none := by
            cases hk : k.acceptable line with
            | none => rfl
            | some w =>
              rw [(acceptable_eq_some k line w).1 hk] at hs
              exact absurd (congrArg Prod.fst (Option.some.inj hs)).symm hj
          simp [hs, hk, hj, ih]
  rw [← hmap, List.getLast?_map]
  rfl

theorem lineKey_of_setting (line : List Char) (k : ConfigKey) (v : ℤ)
    (h : setting line = some (k, v)) : lineKey line = some k.name.toList := by
  obtain ⟨val, hkv, -, -⟩ := (setting_eq_some line k v).1 h
  unfold keyValue at hkv
  unfold lineKey
  cases hs : strtok (stripComment (cString line)) with
  | none => simp [hs] at hkv
  | some kr =>
    cases hr : strtok kr.2 with
    | none => simp [hs, hr] at hkv
    | some vr =>
      simp only [hs, hr, Option.some.injEq, Prod.mk.injEq] at hkv
      simp [hkv.1]

theorem applyLines_swap (config : PosteConfig) (x y : List Char)
    (before after : List (List Char)) (hne : lineKey x ≠ lineKey y) :
    (before ++ x :: y :: after).foldl applyLine config =
      (before ++ y :: x :: after).foldl applyLine config := by
  simp only [applyLines_eq, List.filterMap_append, List.filterMap_cons]
  cases hx : setting x with
  | none => rfl
  | some kx =>
    cases hy : setting y with
    | none => rfl
    | some ky =>
      apply configFields.assign_swap
      intro hkeys
      have hkx := lineKey_of_setting x kx.1 kx.2 hx
      have hky := lineKey_of_setting y ky.1 ky.2 hy
      exact hne (by rw [hkx, hky, hkeys])

theorem accepted_iff (config : PosteConfig) :
    config.Accepted ↔ ∀ k : ConfigKey, k.least ≤ configFields.get config k := by
  constructor
  · intro h k
    obtain ⟨h1, h2, h3, h4, h5, h6, h7, h8, h9, h10, h11, h12⟩ := h
    cases k <;> assumption
  · intro h
    exact ⟨h .numOperators, h .numUsers, h .numWorkerSeats, h .simDuration, h .pServMin,
      h .pServMax, h .minuteDuration, h .workerShiftOpen, h .workerShiftClose, h .explodeMax,
      h .maxNRequests, h .nofPause⟩

theorem loadConfig_accepted (config : PosteConfig) (file : List Char)
    (h : config.Accepted) : (loadConfig config file).Accepted := by
  rw [accepted_iff] at h ⊢
  rw [loadConfig_eq]
  apply configFields.assign_forall (fun k v => k.least ≤ v) config _ h
  intro kv hkv
  obtain ⟨line, -, hline⟩ := List.mem_filterMap.1 hkv
  obtain ⟨val, -, -, hle⟩ := (setting_eq_some line kv.1 kv.2).1 hline
  exact hle

theorem defaultConfig_accepted : defaultConfig.Accepted := by
  unfold PosteConfig.Accepted
  decide

/-- Every field ends with its last acceptable value, loading a file again changes nothing,
adjacent lines with different keys can be swapped, and accepted values stay accepted. -/
theorem loadConfig_last_acceptable :
    (∀ (config : PosteConfig) (file : List Char) (k : ConfigKey),
      configFields.get (loadConfig config file) k =
        (((buffers file).filterMap k.acceptable).getLast?).getD (configFields.get config k)) ∧
    (∀ (config : PosteConfig) (file : List Char),
      loadConfig (loadConfig config file) file = loadConfig config file) ∧
    (∀ (config : PosteConfig) (file swapped : List Char) (x y : List Char)
      (before after : List (List Char)), buffers file = before ++ x :: y :: after →
      buffers swapped = before ++ y :: x :: after → lineKey x ≠ lineKey y →
      loadConfig config swapped = loadConfig config file) ∧
    (∀ (config : PosteConfig) (file : List Char), config.Accepted →
      (loadConfig config file).Accepted) := by
  refine ⟨?_, ?_, ?_, loadConfig_accepted⟩
  · intro config file k
    rw [loadConfig_eq, Fields.get_assign, lastFor_settings]
  · intro config file
    rw [loadConfig_eq, loadConfig_eq]
    exact configFields.assign_assign config _
  · intro config file swapped x y before after hfile hswapped hne
    unfold loadConfig
    rw [hfile, hswapped]
    exact applyLines_swap config y x before after (Ne.symm hne)

theorem loadConfig_last_acceptable_twoLines :
    loadConfig defaultConfig "sim_duration=2\nnum_users=7\n".toList =
        loadConfig defaultConfig "num_users=7\nsim_duration=2\n".toList ∧
      (loadConfig defaultConfig "num_users=7\nsim_duration=2\n".toList).Accepted :=
  ⟨loadConfig_last_acceptable.2.2.1 defaultConfig _ _ "num_users=7\n".toList
    "sim_duration=2\n".toList [] [] (by simp [buffers, fgets, maxLineLen])
    (by simp [buffers, fgets, maxLineLen]) (by decide),
  loadConfig_last_acceptable.2.2.2 defaultConfig _ defaultConfig_accepted⟩

end PosteItaliane
