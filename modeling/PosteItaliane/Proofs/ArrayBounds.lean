import PosteItaliane.Framework.ForLoops
import PosteItaliane.Model.Utente
import PosteItaliane.Proofs.ConfigLoading

/-!
# Indices into the fixed arrays

The loops over the seats and over the list of services, with the array positions they
visit. Their limits are values of the configuration, the sizes of the arrays are constants
of the headers, and nothing in `load_config` relates the two.
-/

namespace PosteItaliane

open Framework

/-- `MAX_WORKER_SEATS`, the size of `NOF_WORKER_SEATS` and of `valid_seats`. -/
def maxWorkerSeats : ℕ := 30

/-- `MAX_N_REQUESTS_COMPILE`, the size of `service_list`. -/
def maxNRequestsCompile : ℕ := 50

/-- A position of one of the three arrays. -/
inductive Access where
  | seat (i : ℕ)
  | validSeat (i : ℕ)
  | serviceEntry (i : ℕ)

def Access.InBounds : Access → Prop
  | seat i => i < maxWorkerSeats
  | validSeat i => i < maxWorkerSeats
  | serviceEntry i => i < maxNRequestsCompile

/-- The loop of `start_new_day` goes over all seats. -/
def startNewDayAccesses (n : ℕ) : List Access := (List.range n).map .seat

/-- `find_seat` with the seats it looks at. -/
def findSeatLoop (n : ℕ) (seats : SeatTable) (service : ServiceId) : Option ℕ × List ℕ :=
  scan (fun i => (seats i).operatorStatus = .free ∧ (seats i).serviceId = service) 0 n

/-- `can_work_today` with the seats it looks at. -/
def canWorkTodayLoop (n : ℕ) (seats : SeatTable) (service : ServiceId) : Option ℕ × List ℕ :=
  scan (fun i => (seats i).serviceId = service) 0 n

/-- `find_valid_seats` with the entries of `valid_seats` it writes. -/
def findValidSeatsLoop (n : ℕ) (seats : SeatTable) (service : ServiceId) : List ℕ × List ℕ :=
  collect (fun i => (seats i).serviceId = service ∧ (seats i).operatorStatus = .occupied) 0 n 0

def findSeatAccesses (n : ℕ) (seats : SeatTable) (service : ServiceId) : List Access :=
  (findSeatLoop n seats service).2.map .seat

def canWorkTodayAccesses (n : ℕ) (seats : SeatTable) (service : ServiceId) : List Access :=
  (canWorkTodayLoop n seats service).2.map .seat

/-- The loop looks at every seat and writes an entry for each one it takes. -/
def findValidSeatsAccesses (n : ℕ) (seats : SeatTable) (service : ServiceId) : List Access :=
  (List.range n).map .seat ++ (findValidSeatsLoop n seats service).2.map .validSeat

/-- `generate_service_list` writes one entry a service. -/
def generateServiceListAccesses (count : ℤ) : List Access :=
  (List.range count.toNat).map .serviceEntry

/-- `day_loop` reads one entry an iteration and may go home at any of them. -/
def dayLoopAccesses (count : ℤ) (goesHome : ℕ → Bool) : List Access :=
  (scan goesHome 0 count.toNat).2.map .serviceEntry

/-- The results of the loops are the functions of the model. -/
theorem findSeatLoop_result (n : ℕ) (seats : SeatTable) (service : ServiceId) :
    (findSeatLoop n seats service).1 = findSeat n seats service := by
  unfold findSeatLoop findSeat firstSeat
  rw [scan_found, List.range_eq_range']

theorem canWorkTodayLoop_result (n : ℕ) (seats : SeatTable) (service : ServiceId) :
    (canWorkTodayLoop n seats service).1.isSome = canWorkToday n seats service := by
  unfold canWorkTodayLoop canWorkToday
  rw [scan_found, List.range_eq_range', List.isSome_find?]

theorem findValidSeatsLoop_result (n : ℕ) (seats : SeatTable) (service : ServiceId) :
    (findValidSeatsLoop n seats service).1 = findValidSeats n seats service := by
  unfold findValidSeatsLoop findValidSeats
  rw [collect_out, List.range_eq_range']

/-- The accesses of a user that draws its services with `r`; none if it divides by zero. -/
def serviceListAccesses (config : PosteConfig) (r : ℕ) (goesHome : ℕ → Bool) : List Access :=
  match Utente.requestCount config r with
  | none => []
  | some count => generateServiceListAccesses count ++ dayLoopAccesses count goesHome

/-- All that the five functions access, for some table of seats and some draws. -/
def accesses (config : PosteConfig) (seats : SeatTable) (service : ServiceId) (r : ℕ)
    (goesHome : ℕ → Bool) : List Access :=
  startNewDayAccesses config.numWorkerSeats.toNat ++
    findSeatAccesses config.numWorkerSeats.toNat seats service ++
    canWorkTodayAccesses config.numWorkerSeats.toNat seats service ++
    findValidSeatsAccesses config.numWorkerSeats.toNat seats service ++
    serviceListAccesses config r goesHome

/-- No function goes past an array, whatever the table holds and whatever is drawn. -/
def IndexSafe (config : PosteConfig) : Prop :=
  ∀ seats service r goesHome, ∀ a ∈ accesses config seats service r goesHome, a.InBounds

theorem seatAccess_lt (n : ℕ) (p : ℕ → Bool) (hn : n ≤ maxWorkerSeats) :
    ∀ a ∈ (scan p 0 n).2.map Access.seat, a.InBounds := by
  intro a ha
  obtain ⟨i, hi, rfl⟩ := List.mem_map.1 ha
  have hlt : i < n := by simpa using (scan_visited p 0 n i hi).2
  exact lt_of_lt_of_le hlt hn

theorem allSeats_lt (n : ℕ) (hn : n ≤ maxWorkerSeats) :
    ∀ a ∈ (List.range n).map Access.seat, a.InBounds := by
  intro a ha
  obtain ⟨i, hi, rfl⟩ := List.mem_map.1 ha
  exact lt_of_lt_of_le (List.mem_range.1 hi) hn

theorem validSeatAccess_lt (n : ℕ) (p : ℕ → Bool) (hn : n ≤ maxWorkerSeats) :
    ∀ a ∈ (collect p 0 n 0).2.map Access.validSeat, a.InBounds := by
  intro a ha
  obtain ⟨i, hi, rfl⟩ := List.mem_map.1 ha
  rw [collect_written, List.mem_range'_1] at hi
  have hlength := collect_length_le p 0 n 0
  show i < maxWorkerSeats
  omega

theorem requestCount_le (config : PosteConfig) (hpos : 0 < config.maxNRequests) (r : ℕ)
    (count : ℤ) (h : Utente.requestCount config r = some count) :
    count ≤ config.maxNRequests := by
  unfold Utente.requestCount at h
  rw [if_neg (ne_of_gt hpos), Option.some.injEq] at h
  have hlt : (r : ℤ).tmod config.maxNRequests < config.maxNRequests := Int.tmod_lt_of_pos _ hpos
  omega

theorem serviceListAccesses_lt (config : PosteConfig) (hpos : 0 < config.maxNRequests)
    (hmax : config.maxNRequests ≤ 50) (r : ℕ) (goesHome : ℕ → Bool) :
    ∀ a ∈ serviceListAccesses config r goesHome, a.InBounds := by
  intro a ha
  unfold serviceListAccesses at ha
  cases hcount : Utente.requestCount config r with
  | none => simp [hcount] at ha
  | some count =>
    have hle : count.toNat ≤ maxNRequestsCompile := by
      have := requestCount_le config hpos r count hcount
      unfold maxNRequestsCompile
      omega
    simp only [hcount, List.mem_append] at ha
    rcases ha with ha | ha
    · obtain ⟨i, hi, rfl⟩ := List.mem_map.1 ha
      exact lt_of_lt_of_le (List.mem_range.1 hi) hle
    · obtain ⟨i, hi, rfl⟩ := List.mem_map.1 ha
      have hlt : i < count.toNat := by simpa using (scan_visited goesHome 0 _ i hi).2
      exact lt_of_lt_of_le hlt hle

theorem indexSafe_of_le (config : PosteConfig) (hpos : 0 < config.maxNRequests)
    (hseats : config.numWorkerSeats ≤ 30) (hmax : config.maxNRequests ≤ 50) :
    IndexSafe config := by
  have hn : config.numWorkerSeats.toNat ≤ maxWorkerSeats := by
    unfold maxWorkerSeats
    omega
  intro seats service r goesHome a ha
  unfold accesses at ha
  simp only [List.mem_append] at ha
  rcases ha with (((ha | ha) | ha) | ha) | ha
  · exact allSeats_lt _ hn a ha
  · exact seatAccess_lt _ _ hn a ha
  · exact seatAccess_lt _ _ hn a ha
  · rcases List.mem_append.1 ha with ha | ha
    · exact allSeats_lt _ hn a ha
    · exact validSeatAccess_lt _ _ hn a ha
  · exact serviceListAccesses_lt config hpos hmax r goesHome a ha

/-- One seat too many is written on the first day. -/
theorem numWorkerSeats_le_of_indexSafe (config : PosteConfig) (h : IndexSafe config) :
    config.numWorkerSeats ≤ 30 := by
  by_contra hgt
  have hmem : Access.seat 30 ∈ accesses config (fun _ => {}) 0 0 fun _ => false := by
    have hfirst : Access.seat 30 ∈ startNewDayAccesses config.numWorkerSeats.toNat := by
      apply List.mem_map_of_mem
      rw [List.mem_range]
      omega
    simp [accesses, hfirst]
  have hlt : (30 : ℕ) < 30 := h _ _ _ _ _ hmem
  exact absurd hlt (by decide)

theorem maxNRequests_le_of_indexSafe (config : PosteConfig) (hpos : 0 < config.maxNRequests)
    (h : IndexSafe config) : config.maxNRequests ≤ 50 := by
  by_contra hgt
  have hcount : Utente.requestCount config 50 = some 51 := by
    unfold Utente.requestCount
    rw [if_neg (ne_of_gt hpos), Int.tmod_eq_of_lt (by decide) (by push_cast; omega)]
    rfl
  have hmem : Access.serviceEntry 50 ∈ accesses config (fun _ => {}) 0 50 fun _ => false := by
    have hlist : Access.serviceEntry 50 ∈ serviceListAccesses config 50 fun _ => false := by
      unfold serviceListAccesses
      rw [hcount]
      apply List.mem_append_left
      exact List.mem_map_of_mem (by simp)
    simp [accesses, hlist]
  have hlt : (50 : ℕ) < 50 := h _ _ _ _ _ hmem
  exact absurd hlt (by decide)

/-- After any file has been loaded, no index is past its array exactly when the file has
left at most 30 seats and at most 50 requests. -/
theorem loadConfig_indexSafe_iff (file : List Char) :
    IndexSafe (loadConfig defaultConfig file) ↔
      (loadConfig defaultConfig file).numWorkerSeats ≤ 30 ∧
        (loadConfig defaultConfig file).maxNRequests ≤ 50 := by
  have haccepted := loadConfig_accepted defaultConfig file defaultConfig_accepted
  obtain ⟨-, -, -, -, -, -, -, -, -, -, hpos, -⟩ := haccepted
  constructor
  · intro h
    exact ⟨numWorkerSeats_le_of_indexSafe _ h, maxNRequests_le_of_indexSafe _ hpos h⟩
  · intro h
    exact indexSafe_of_le _ hpos h.1 h.2

/-- `num_worker_seats=31`: the first day writes a seat behind the table. -/
theorem loadConfig_indexSafe_manySeats :
    ¬ ∀ file : List Char, IndexSafe (loadConfig defaultConfig file) := by
  intro h
  have hbuffers : buffers "num_worker_seats=31".toList = ["num_worker_seats=31".toList] := by
    simp [buffers, fgets, maxLineLen]
  have hseats : (loadConfig defaultConfig "num_worker_seats=31".toList).numWorkerSeats = 31 := by
    unfold loadConfig
    rw [hbuffers]
    decide
  have hle := numWorkerSeats_le_of_indexSafe _ (h "num_worker_seats=31".toList)
  rw [hseats] at hle
  exact absurd hle (by decide)

end PosteItaliane
