import PosteItaliane.Model.Config
import PosteItaliane.Framework.Assignments
import Mathlib.Algebra.Group.Int.Defs
import Mathlib.Order.Basic

/-!
# Reading a configuration file

`load_config` of `config.c` over the bytes of the file, one `Char` a byte: the buffers that
`fgets` returns, the comment cut at `#`, the two tokens of `strtok`, the conversions and the
twelve branches in the order of the source. A file that cannot be opened makes the process
exit, and an absent or empty path leaves `g_config` as it is; both are the caller's matter.
-/

namespace PosteItaliane

/-- `MAX_LINE_LEN`, the size of the buffer with its closing zero. -/
def maxLineLen : ℕ := 128

/-- What one `fgets` call with room for `n` characters reads: up to and including the first
newline, or `n` characters. Paired with the rest of the file. -/
def fgets : ℕ → List Char → List Char × List Char
  | 0, file => ([], file)
  | _ + 1, [] => ([], [])
  | n + 1, c :: file =>
    if c = '\n' then (['\n'], file)
    else
      let (line, rest) := fgets n file
      (c :: line, rest)

theorem fgets_append : ∀ (n : ℕ) (file : List Char),
    (fgets n file).1 ++ (fgets n file).2 = file
  | 0, _ => rfl
  | _ + 1, [] => rfl
  | n + 1, c :: file => by
    by_cases hc : c = '\n'
    · simp [fgets, hc]
    · simp [fgets, hc, fgets_append n file]

theorem fgets_rest_lt (n : ℕ) (c : Char) (file : List Char) :
    (fgets (n + 1) (c :: file)).2.length < (c :: file).length := by
  by_cases hc : c = '\n'
  · simp [fgets, hc]
  · have h := congrArg List.length (fgets_append n file)
    simp only [List.length_append] at h
    simp [fgets, hc]
    omega

/-- The buffers of `while (fgets(line, sizeof(line), file))`. -/
def buffers : List Char → List (List Char)
  | [] => []
  | c :: file =>
    (fgets (maxLineLen - 1) (c :: file)).1 :: buffers (fgets (maxLineLen - 1) (c :: file)).2
  termination_by file => file.length
  decreasing_by exact fgets_rest_lt _ c file

/-- The string in a buffer ends at its first zero byte. -/
def cString (line : List Char) : List Char := line.takeWhile (· ≠ '\x00')

/-- `strchr(line, '#')` and the zero written there. -/
def stripComment (line : List Char) : List Char := line.takeWhile (· ≠ '#')

/-- The delimiters `" =\t\n"`. -/
def isDelimiter (c : Char) : Bool := c = ' ' || c = '=' || c = '\t' || c = '\n'

/-- `strtok`: the next token and what the following call goes on with. -/
def strtok (s : List Char) : Option (List Char × List Char) :=
  match s.dropWhile isDelimiter with
  | [] => none
  | c :: s =>
    some (c :: s.takeWhile fun c => !isDelimiter c,
      (s.dropWhile fun c => !isDelimiter c).drop 1)

/-- The first two tokens before the comment, where the loop does not `continue`. -/
def keyValue (line : List Char) : Option (List Char × List Char) :=
  match strtok (stripComment (cString line)) with
  | none => none
  | some (key, rest) =>
    match strtok rest with
    | none => none
    | some (val, _) => some (key, val)

/-- `isspace` in the C locale. -/
def isSpace (c : Char) : Bool :=
  c = ' ' || c = '\t' || c = '\n' || c = '\x0b' || c = '\x0c' || c = '\r'

/-- The value of the digits in front, `0` if there is none. -/
def leadingDigits (s : List Char) : ℕ :=
  (s.takeWhile Char.isDigit).foldl (fun n c => 10 * n + (c.toNat - '0'.toNat)) 0

/-- The number at the front of a string, after blanks and an optional sign. -/
def decimal (s : List Char) : ℤ :=
  match s.dropWhile isSpace with
  | '-' :: s => -leadingDigits s
  | '+' :: s => leadingDigits s
  | s => leadingDigits s

/-- `atol(s)`, which is `strtol(s, NULL, 10)`: it stops at `LONG_MIN` and `LONG_MAX`. -/
def atol (s : List Char) : ℤ := max (-2 ^ 63) (min (decimal s) (2 ^ 63 - 1))

/-- `atoi(s)`, the same `long` cut down to an `int`. -/
def atoi (s : List Char) : ℤ := (atol s).bmod (2 ^ 32)

/-- The body of the `fgets` loop after the tokens are taken. -/
def applySetting (config : PosteConfig) (key val : List Char) : PosteConfig :=
  if key = "num_operators".toList then
    let iv := atoi val
    if iv > 0 then { config with numOperators := iv } else config
  else if key = "num_users".toList then
    let iv := atoi val
    if iv > 0 then { config with numUsers := iv } else config
  else if key = "num_worker_seats".toList then
    let iv := atoi val
    if iv > 0 then { config with numWorkerSeats := iv } else config
  else if key = "sim_duration".toList then
    let iv := atoi val
    if iv > 0 then { config with simDuration := iv } else config
  else if key = "p_serv_min".toList then
    let iv := atoi val
    if iv ≥ 0 then { config with pServMin := iv } else config
  else if key = "p_serv_max".toList then
    let iv := atoi val
    if iv ≥ 0 then { config with pServMax := iv } else config
  else if key = "minute_duration".toList then
    let lv := atol val
    if lv > 0 then { config with minuteDuration := lv } else config
  else if key = "worker_shift_open".toList then
    let iv := atoi val
    if iv ≥ 0 then { config with workerShiftOpen := iv } else config
  else if key = "worker_shift_close".toList then
    let iv := atoi val
    if iv ≥ 0 then { config with workerShiftClose := iv } else config
  else if key = "explode_max".toList then
    let iv := atoi val
    if iv ≥ 0 then { config with explodeMax := iv } else config
  else if key = "max_n_requests".toList then
    let iv := atoi val
    if iv > 0 then { config with maxNRequests := iv } else config
  else if key = "nof_pause".toList then
    let iv := atoi val
    if iv > 0 then { config with nofPause := iv } else config
  else config

/-- One iteration of the loop. -/
def applyLine (config : PosteConfig) (line : List Char) : PosteConfig :=
  match keyValue line with
  | none => config
  | some (key, val) => applySetting config key val

/-- `load_config` on a file that opens. -/
def loadConfig (config : PosteConfig) (file : List Char) : PosteConfig :=
  (buffers file).foldl applyLine config

end PosteItaliane
