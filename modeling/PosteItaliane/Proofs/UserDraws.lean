import PosteItaliane.Framework.MachineInts
import PosteItaliane.Model.Utente
import PosteItaliane.Proofs.ConfigLoading

/-!
# The draws of a user's day

The remainders that `will_go_to_poste`, `generate_service_list` and `generate_walk_in_time`
take of their draws. Two divisors are fields of the configuration, and `load_config` takes
over a zero for one of them. The third falls back to 1, also where the hours are too large
for an `int`: what an operation then gives is a parameter.
-/

namespace PosteItaliane

open Framework MachineInts

variable (arith : ℤ → ℤ) (config : PosteConfig)

/-- `max_time`, with every result passed through `arith`. -/
def walkInModulus (numRequests : ℤ) : ℤ :=
  let shiftStart := arith (config.workerShiftOpen * 60)
  let shiftEnd := arith (config.workerShiftClose * 60)
  let margin := arith (5 * numRequests)
  let maxTime := arith (arith (shiftEnd - margin) - shiftStart)
  if maxTime < 1 then 1 else maxTime

/-- `generate_walk_in_time`. There is none if it divides by zero. -/
def walkInChecked (numRequests : ℤ) (r : ℕ) : Option ℤ := do
  let offset ← checkedMod r (walkInModulus arith config numRequests)
  some (arith (arith (arith (config.workerShiftOpen * 60) + offset) + 1))

/-- The list of `generate_service_list` for a count and the draws after it. -/
def serviceListChecked (count : ℕ) (draw : ℕ → ℕ) : Option (List ℤ) :=
  (List.range count).mapM fun i => checkedMod (draw i) numServiceTypes

/-- The functions on one day, for its sequence of draws. There is none if one of them does
not return; a user that stays at home has no list. -/
def userDay (draw : ℕ → ℕ) : Option (Option (List ℤ × ℤ)) := do
  let goes ← Utente.willGoToPoste config (draw 0)
  if goes then
    let count ← Utente.requestCount config (draw 1)
    let list ← serviceListChecked count.toNat fun i => draw (i + 2)
    let walkIn ← walkInChecked arith config count (draw (count.toNat + 2))
    some (some (list, walkIn))
  else some none

/-- The divisors, in the order in which the functions use them. -/
def dayModuli (numRequests : ℤ) : List ℤ :=
  [config.pServMax, config.maxNRequests, numServiceTypes,
    walkInModulus arith config numRequests]

/-- No divisor is zero, every day of draws returns, and in the simulation no user dies of a
division. -/
structure DaysReturn (config : PosteConfig) : Prop where
  moduli : ∀ arith n, ∀ m ∈ dayModuli arith config n, m ≠ 0
  returns : ∀ arith draw, (userDay arith config draw).isSome = true
  alive : ∀ {O U : Type} [Fintype O] [Fintype U] (site : Site O U) (u : U) (l : Utente.Local)
    (sh : Shared O U) (rGo rNum : ℕ), site.config = config →
    ¬ Utente.Enabled site u l sh (.crash rGo rNum)

/-- Without overflow it is the function of the model. -/
theorem walkInChecked_id (numRequests : ℤ) (r : ℕ) :
    walkInChecked id config numRequests r =
      some (Utente.generateWalkInTime config numRequests r) := by
  have hne : walkInModulus id config numRequests ≠ 0 := by
    simp only [walkInModulus, id]
    split <;> omega
  simp only [walkInChecked, checkedMod_of_ne hne, Option.bind_eq_bind, Option.bind_some]
  rfl

theorem walkInModulus_pos (numRequests : ℤ) : 0 < walkInModulus arith config numRequests := by
  simp only [walkInModulus]
  split <;> omega

theorem serviceListChecked_eq (count : ℕ) (draw : ℕ → ℕ) :
    serviceListChecked count draw = some
      ((Utente.generateServiceList ((List.range count).map draw)).map
        fun s : ServiceId => (s.val : ℤ)) := by
  have hdraw (i : ℕ) : checkedMod (draw i) numServiceTypes =
      some ((drawService (draw i)).val : ℤ) := by
    rw [checkedMod_of_ne (by decide), Int.tmod_eq_emod_of_nonneg (Int.natCast_nonneg _)]
    rfl
  unfold serviceListChecked Utente.generateServiceList
  rw [funext hdraw, List.map_map, List.map_map]
  induction List.range count with
  | nil => rfl
  | cons i is ih =>
    rw [List.mapM_cons, ih]
    rfl

theorem userDay_isSome (hmax : config.pServMax ≠ 0) (hnum : config.maxNRequests ≠ 0)
    (draw : ℕ → ℕ) : (userDay arith config draw).isSome = true := by
  unfold userDay Utente.willGoToPoste Utente.requestCount walkInChecked
  rw [if_neg hmax, if_neg hnum]
  simp only [Option.bind_eq_bind, Option.bind_some, serviceListChecked_eq,
    checkedMod_of_ne (walkInModulus_pos arith config _).ne']
  split <;> rfl

theorem daysReturn_of_ne (hmax : config.pServMax ≠ 0) (hnum : config.maxNRequests ≠ 0) :
    DaysReturn config where
  moduli arith n := by
    have hwalkIn := (walkInModulus_pos arith config n).ne'
    simp [dayModuli, hmax, hnum, hwalkIn]
  returns arith draw := userDay_isSome arith config hmax hnum draw
  alive := by
    rintro O U _ _ site u l sh rGo rNum rfl ⟨-, hgoes | ⟨-, hcount⟩⟩
    · simp [Utente.willGoToPoste, hmax] at hgoes
    · simp [Utente.requestCount, hnum] at hcount

/-- After any file has been loaded, every day returns exactly when the last value that the
file gives to `p_serv_max` is not 0. -/
theorem loadConfig_daysReturn_iff (file : List Char) :
    DaysReturn (loadConfig defaultConfig file) ↔
      ((buffers file).filterMap ConfigKey.pServMax.acceptable).getLast? ≠ some 0 := by
  have hmax : (loadConfig defaultConfig file).pServMax =
      (((buffers file).filterMap ConfigKey.pServMax.acceptable).getLast?).getD 100 := by
    rw [← lastFor_settings]
    have hget := configFields.get_assign defaultConfig ((buffers file).filterMap setting) .pServMax
    rw [← loadConfig_eq] at hget
    exact hget
  obtain ⟨-, -, -, -, -, -, -, -, -, -, hnum, -⟩ :=
    loadConfig_accepted defaultConfig file defaultConfig_accepted
  constructor
  · intro h hzero
    refine h.moduli id 1 (loadConfig defaultConfig file).pServMax (by simp [dayModuli]) ?_
    rw [hmax, hzero]
    rfl
  · intro hlast
    refine daysReturn_of_ne _ ?_ hnum.ne'
    rw [hmax]
    cases hvalue : ((buffers file).filterMap ConfigKey.pServMax.acceptable).getLast? with
    | none => decide
    | some v =>
      intro hv
      rw [Option.getD_some] at hv
      rw [hvalue, hv] at hlast
      exact hlast rfl

/-- `p_serv_max=0`: the first user that asks itself whether it goes divides by zero. -/
theorem loadConfig_divides_by_zero :
    ¬ ∀ file : List Char, DaysReturn (loadConfig defaultConfig file) := by
  intro h
  have hbuffers : buffers "p_serv_max=0".toList = ["p_serv_max=0".toList] := by
    simp [buffers, fgets, maxLineLen]
  have hmax : (loadConfig defaultConfig "p_serv_max=0".toList).pServMax = 0 := by
    unfold loadConfig
    rw [hbuffers]
    decide
  exact (h "p_serv_max=0".toList).moduli id 1 _ (by simp [dayModuli]) hmax

end PosteItaliane
