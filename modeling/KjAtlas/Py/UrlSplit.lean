import KjAtlas.Py.Url

/-! # Splitting an address in Python

`urlsplit` takes an address apart. Control characters and spaces at its start are
left out, and so are tabs and line breaks. What stands between the two slashes and
the next delimiter is the network location, with the host name and the port.
-/

namespace KjAtlas.Py

open Js (Text)

/-- The parts of Python's `str` that rest on the tables of Unicode, with what they do on ASCII. -/
structure Unicode where
  lower : String → String
  upper : String → String
  isPrintable : Char → Bool
  lower_ascii : ∀ s : String, (∀ c ∈ s.toList, c.toNat < 128) →
    lower s = .ofList (s.toList.map Char.toLower)
  upper_ascii : ∀ s : String, (∀ c ∈ s.toList, c.toNat < 128) →
    upper s = .ofList (s.toList.map Char.toUpper)
  control_not_printable : ∀ c : Char, c.toNat < 32 → isPrintable c = false

/-- Letters and printable characters of ASCII only. -/
def Unicode.ascii : Unicode where
  lower s := .ofList (s.toList.map Char.toLower)
  upper s := .ofList (s.toList.map Char.toUpper)
  isPrintable c := decide (32 ≤ c.toNat ∧ c.toNat < 127)
  lower_ascii _ _ := rfl
  upper_ascii _ _ := rfl
  control_not_printable c hlt := by
    apply decide_eq_false
    omega

structure SplitResult where
  scheme : Text
  netloc : Text
  path : Text
  query : Text
  fragment : Text

/-- `text.partition(sep)` without the separator. -/
def partition (sep : Char) (text : Text) : Text × Text :=
  (text.takeWhile (· ≠ sep), (text.dropWhile (· ≠ sep)).drop 1)

/-- A text is what stands before the first separator, followed by it if there is one. -/
theorem partition_eq (sep : Char) (text : Text) :
    text = (partition sep text).1 ++ if sep ∈ text then sep :: (partition sep text).2 else [] := by
  unfold partition
  induction text with
  | nil => rfl
  | cons c text ih =>
      by_cases hc : c = sep
      · simp [hc]
      · have hmem : sep ∈ c :: text ↔ sep ∈ text := by simp [Ne.symm hc]
        simp only [hmem]
        simpa [hc] using ih

/-! ## The parts of an address -/

/-- `_WHATWG_C0_CONTROL_OR_SPACE`. -/
def isC0ControlOrSpace (c : Char) : Bool := decide (c.toNat ≤ 32)

/-- `_UNSAFE_URL_BYTES_TO_REMOVE`. -/
def unsafeUrlChars : List Char := ['\t', '\r', '\n']

/-- A character of `scheme_chars`. -/
def isSchemeChar (c : Char) : Bool := c.isAlphanum || decide (c ∈ ['+', '-', '.'])

/-- The characters before the first colon are a scheme. -/
def HasScheme (url : Text) : Prop :=
  ':' ∈ url ∧ ((partition ':' url).1.head?.any Char.isAlpha) = true ∧
    (partition ':' url).1.all isSchemeChar = true

instance (url : Text) : Decidable (HasScheme url) := inferInstanceAs (Decidable (_ ∧ _ ∧ _))

/-- The scheme in lower case, and the rest. -/
def splitScheme (url : Text) : Text × Text :=
  if HasScheme url then ((partition ':' url).1.map Char.toLower, (partition ':' url).2)
  else ([], url)

def isDelimiter (c : Char) : Bool := decide (c ∈ ['/', '?', '#'])

/-- `_splitnetloc`. -/
def splitNetloc (url : Text) : Text × Text :=
  (url.takeWhile fun c => !isDelimiter c, url.dropWhile fun c => !isDelimiter c)

def splitLocation (rest : Text) : Text × Text :=
  if ['/', '/'].isPrefixOf rest then splitNetloc (rest.drop 2) else ([], rest)

section Split

variable (validNetloc : Text → Bool)

/-- `urlsplit`; `none` for a `ValueError`. `validNetloc` stands for `_check_bracketed_netloc` and
`_checknetloc`. -/
def urlsplit (url : Text) : Option SplitResult :=
  let url := (url.dropWhile isC0ControlOrSpace).filter fun c => decide (c ∉ unsafeUrlChars)
  let (scheme, rest) := splitScheme url
  let (netloc, rest) := splitLocation rest
  let (rest, fragment) := partition '#' rest
  let (path, query) := partition '?' rest
  if ('[' ∈ netloc ↔ ']' ∈ netloc) ∧ validNetloc netloc = true then
    some ⟨scheme, netloc, path, query, fragment⟩
  else none

end Split

namespace SplitResult

/-- `_hostinfo`: the host name and the port. -/
def hostinfo (parsed : SplitResult) : Text × Text :=
  let info := (rpartition '@' parsed.netloc).2
  if '[' ∈ info then
    let (hostname, rest) := partition ']' (partition '[' info).2
    (hostname, (partition ':' rest).2)
  else partition ':' info

/-- `username is not None`. -/
def HasUsername (parsed : SplitResult) : Prop := '@' ∈ parsed.netloc

instance (parsed : SplitResult) : Decidable parsed.HasUsername :=
  inferInstanceAs (Decidable (_ ∈ _))

/-- `port` raises no `ValueError`. -/
def PortReadable (parsed : SplitResult) : Prop :=
  parsed.hostinfo.2.all Char.isDigit = true ∧ Nat.ofDigitChars 10 parsed.hostinfo.2 0 ≤ 65535

instance (parsed : SplitResult) : Decidable parsed.PortReadable :=
  inferInstanceAs (Decidable (_ ∧ _))

end SplitResult

theorem dropWhile_of_head {p : Char → Bool} {text : Text} (hhead : ∀ c ∈ text.head?, p c = false) :
    text.dropWhile p = text := by
  cases text with
  | nil => rfl
  | cons c text => rw [List.dropWhile_cons_of_neg (by simp [hhead c rfl])]

theorem splitScheme_of_ne_nil {url : Text} (hscheme : (splitScheme url).1 ≠ []) :
    ∃ s, url = s ++ ':' :: (splitScheme url).2 ∧ s.map Char.toLower = (splitScheme url).1 := by
  unfold splitScheme at hscheme ⊢
  split
  next hhas =>
    refine ⟨(partition ':' url).1, ?_, rfl⟩
    conv_lhs => rw [partition_eq ':' url, if_pos hhas.1]
  next hnone =>
    rw [if_neg hnone] at hscheme
    exact absurd rfl hscheme

theorem splitLocation_of_ne_nil {rest : Text} (hnetloc : (splitLocation rest).1 ≠ []) :
    rest = '/' :: '/' :: ((splitLocation rest).1 ++ (splitLocation rest).2) ∧
      ∀ c ∈ (splitLocation rest).1, isDelimiter c = false := by
  unfold splitLocation at hnetloc ⊢
  split
  next hslashes =>
    obtain ⟨after, rfl⟩ := List.isPrefixOf_iff_prefix.mp hslashes
    refine ⟨?_, fun c hc => ?_⟩
    · rw [splitNetloc, List.takeWhile_append_dropWhile]
      rfl
    · simpa using List.mem_takeWhile_imp hc
  next hnone =>
    rw [if_neg hnone] at hnetloc
    exact absurd rfl hnetloc

/-- An address without characters that are left out is its scheme, two slashes, its network
location, and the rest; `s` is the scheme as it is written. -/
theorem exists_parts {validNetloc : Text → Bool} {url : Text} {parsed : SplitResult}
    (hstart : ∀ c ∈ url.head?, isC0ControlOrSpace c = false) (hsafe : ∀ c ∈ url, c ∉ unsafeUrlChars)
    (hsplit : urlsplit validNetloc url = some parsed) (hscheme : parsed.scheme ≠ [])
    (hnetloc : parsed.netloc ≠ []) :
    ∃ s rest, url = s ++ ':' :: '/' :: '/' :: (parsed.netloc ++ rest) ∧
      s.map Char.toLower = parsed.scheme ∧ (∀ c ∈ parsed.netloc, isDelimiter c = false) ∧
      rest = parsed.path ++ (if '?' ∈ (partition '#' rest).1 then '?' :: parsed.query else []) ++
        (if '#' ∈ rest then '#' :: parsed.fragment else []) := by
  have hkept : (url.dropWhile isC0ControlOrSpace).filter (fun c => decide (c ∉ unsafeUrlChars)) =
      url := by
    rw [dropWhile_of_head hstart, List.filter_eq_self]
    exact fun c hc => decide_eq_true (hsafe c hc)
  unfold urlsplit at hsplit
  rw [hkept] at hsplit
  dsimp only at hsplit
  split at hsplit
  next =>
    obtain rfl := Option.some.inj hsplit
    obtain ⟨s, hurl, hlower⟩ := splitScheme_of_ne_nil hscheme
    obtain ⟨hlocation, hplain⟩ := splitLocation_of_ne_nil hnetloc
    refine ⟨s, (splitLocation (splitScheme url).2).2, ?_, hlower, hplain, ?_⟩
    · rw [← hlocation]
      exact hurl
    · -- first the fragment is taken off, then the query
      dsimp only
      rw [← partition_eq '?', ← partition_eq '#']
  next => cases hsplit

end KjAtlas.Py
