import ParatroSdk.Error

/-! # Configuration

`Config` with its default timeout, and `normalizeBaseUrl`, the check that
`MpcClient::new` makes on the base URL (`src/config.rs`).  Durations and instants are
natural numbers of nanoseconds. -/

namespace ParatroSdk

open Text

/-- A `std::time::Duration`, in nanoseconds. -/
abbrev Duration := ℕ

namespace Duration

/-- Nanoseconds in a second. -/
def nanosPerSec : ℕ := 1000000000

/-- `Duration::from_secs`. -/
def fromSecs (secs : ℕ) : Duration := nanosPerSec * secs

/-- `Duration::as_secs`: the whole seconds. -/
def asSecs (d : Duration) : ℕ := d / nanosPerSec

end Duration

/-- HTTP timeout used when `Config.timeout` is left at its default. -/
def defaultTimeout : Duration := Duration.fromSecs 200

def baseUrlError : String :=
  "base URL must be an absolute http(s) URL, e.g. https://<gateway-host> (Paratro cloud or your private gateway)"

structure Config where
  baseUrl : String
  timeout : Duration
deriving DecidableEq, Repr

/-- `Config::new`: the base URL is not checked here. -/
def Config.new (baseUrl : String) : Config := ⟨baseUrl, defaultTimeout⟩

/-- Validates a gateway base URL and returns it without trailing slashes. -/
def normalizeBaseUrl (baseUrl : String) : Except Error String :=
  let url := trimEndMatches baseUrl '/'
  let host := (((stripPrefix url "https://").or (stripPrefix url "http://")).map
    (fun rest => beforeFirst rest '/')).filter
    (fun host => !host.isEmpty && !host.toList.any isWhitespace)
  match host with
  | some _ => .ok url
  | none => .error (.invalidConfig baseUrlError)

/-- An accepted base URL is a scheme followed by a first segment that names a host and has
no whitespace, without a slash at the end. -/
theorem normalizeBaseUrl_eq_ok {u v : String} (h : normalizeBaseUrl u = .ok v) :
    v = trimEndMatches u '/' ∧ ∃ rest, (v = "https://" ++ rest ∨ v = "http://" ++ rest) ∧
      rest.toList.takeWhile (· != '/') ≠ [] ∧
      (rest.toList.takeWhile (· != '/')).any isWhitespace = false := by
  unfold normalizeBaseUrl at h
  dsimp only at h
  split at h
  · rename_i host hh
    cases h
    refine ⟨rfl, ?_⟩
    obtain ⟨hmap, hf⟩ := Option.filter_eq_some_iff.mp hh
    obtain ⟨rest, hor, rfl⟩ := Option.map_eq_some_iff.mp hmap
    simp only [beforeFirst, Bool.and_eq_true, Bool.not_eq_eq_eq_not, Bool.not_true,
      String.toList_ofList] at hf
    refine ⟨rest, ?_, ?_, hf.2⟩
    · obtain h | ⟨-, h⟩ := Option.or_eq_some_iff.mp hor
      · exact .inl (stripPrefix_eq_some_iff.mp h)
      · exact .inr (stripPrefix_eq_some_iff.mp h)
    · intro hnil
      rw [hnil] at hf
      simp at hf
  · cases h

end ParatroSdk
