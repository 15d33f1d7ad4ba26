import EspcanBr.Autoconnect.Url
import EspcanBr.Base.Form

/-!
# The grammar of auto-connect URLs

The texts that `parse_url` accepts, as a type of their own: `UrlText` has the parts of a URL with what
`parse_url` checks of them. `parseUrl_iff` says that these are all, and that each is read by its parts.
The host may hold slashes and colons, and the port a plus sign and leading zeros.
-/

namespace EspcanBr.Autoconnect
open Base

/-- A URL by its parts. The digits are those of the port. -/
structure UrlText where
  tls : Bool
  host : List UInt8
  plus : Bool
  digits : List UInt8
  port : UInt16
  slashes : ℕ
  query : Option (List UInt8)
  host_ne : host ≠ []
  host_query : 0x3F ∉ host
  digits_ne : digits ≠ []
  decimal : decimalFrom 0 digits = some port.toNat

namespace UrlText

def scheme (tls : Bool) : List UInt8 := if tls then ascii "tls" else ascii "tcp"

def portText (u : UrlText) : List UInt8 := plusSign u.plus ++ u.digits

def authority (u : UrlText) : List UInt8 := u.host ++ 0x3A :: u.portText

/-- What stands before the query. -/
def beforeQ (u : UrlText) : List UInt8 := u.authority ++ List.replicate u.slashes 0x2F

def queryText : Option (List UInt8) → List UInt8
  | some q => 0x3F :: q
  | none => []

/-- What stands after the scheme. -/
def rest (u : UrlText) : List UInt8 := u.beforeQ ++ queryText u.query

def text (u : UrlText) : List UInt8 := scheme u.tls ++ ascii "://" ++ u.rest

/-- The value of the last pair with the key in the query. -/
def param (u : UrlText) (key : String) : Option (List UInt8) :=
  u.query.bind fun q => formLast (formPairs q) (ascii key)

/-- What the URL says. -/
def parsed (u : UrlText) : ParsedUrl :=
  ⟨u.tls, u.host, u.port, u.param "pubkey", u.param "token"⟩

lemma portText_range (u : UrlText) : ∀ c ∈ u.portText, c = 0x2B ∨ isDigit c = true := by
  intro c mem
  rcases List.mem_append.mp mem with sign | digit
  · refine .inl ?_
    rw [plusSign] at sign
    split at sign
    · exact List.mem_singleton.mp sign
    · cases sign
  · exact .inr (decimalFrom_digits u.decimal c digit)

/-- The scheme is cut off at the first `://`. -/
lemma cut_scheme (u : UrlText) : splitOnce (ascii "://") u.text = some (scheme u.tls, u.rest) := by
  have start : FirstSplit (ascii "://") (scheme u.tls ++ ascii "://") (scheme u.tls) [] := by
    apply splitOnce_iff.mp
    cases u.tls with
    | false => decide
    | true => decide
  exact splitOnce_iff.mpr (start.append u.rest)

lemma beforeQ_query (u : UrlText) : 0x3F ∉ u.beforeQ := by
  simp only [beforeQ, authority, List.mem_append, List.mem_cons, List.mem_replicate, not_or]
  refine ⟨⟨u.host_query, by decide, fun mem => ?_⟩, fun slash => absurd slash.2 (by decide)⟩
  rcases u.portText_range _ mem with sign | digit
  · cases sign
  · cases digit

/-- The query is cut off at the first `?`. -/
lemma cut_query (u : UrlText) :
    splitOnce (ascii "?") u.rest = u.query.map fun q => (u.beforeQ, q) := by
  have mark : ascii "?" = [0x3F] := by decide
  rw [mark, rest]
  cases u.query with
  | none =>
    rw [queryText, List.append_nil]
    exact splitOnce_single_none.mpr u.beforeQ_query
  | some q => exact splitOnce_iff.mpr (.of_not_mem u.beforeQ_query q)

/-- The slashes at the end are trimmed off. -/
lemma trim_slashes (u : UrlText) : u.beforeQ.rdropWhile (· = 0x2F) = u.authority := by
  obtain ⟨front, c, eq⟩ := (List.eq_nil_or_concat' u.digits).resolve_left u.digits_ne
  have digit := decimalFrom_digits u.decimal c (by simp [eq])
  have ne : c ≠ 0x2F := by
    rintro rfl
    cases digit
  have last : u.authority = (u.host ++ 0x3A :: plusSign u.plus ++ front) ++ [c] := by
    simp [authority, portText, eq]
  rw [beforeQ, last]
  exact trimEnd_append ne _ _

/-- The port is cut off at the last `:`. -/
lemma cut_port (u : UrlText) : rsplitOnce 0x3A u.authority = some (u.host, u.portText) := by
  refine rsplitOnce_iff.mpr ⟨rfl, fun mem => ?_⟩
  rcases u.portText_range _ mem with sign | digit
  · cases sign
  · cases digit

end UrlText

/-- The query is read by its last pairs. -/
lemma foldl_queryPair (query : List UInt8) :
    (split (ascii "&") query).foldl queryPair (none, none) =
      (formLast (formPairs query) (ascii "pubkey"), formLast (formPairs query) (ascii "token")) := by
  have sep : ascii "&" = [0x26] := by decide
  have sign : ascii "=" = [0x3D] := by decide
  have other : ascii "pubkey" ≠ ascii "token" := by decide
  rw [sep]
  refine Prod.ext (foldl_formLast Prod.fst (fun found piece => ?_) rfl query)
    (foldl_formLast Prod.snd (fun found piece => ?_) rfl query)
  · rw [queryPair, sign]
    cases splitOnce [0x3D] piece with
    | none => rfl
    | some cut =>
      simp only
      split
      · rfl
      · split
        · rfl
        · rfl
  · rw [queryPair, sign]
    cases splitOnce [0x3D] piece with
    | none => rfl
    | some cut =>
      simp only
      split
      · rename_i pubkey
        rw [pubkey, if_neg other]
      · split
        · rfl
        · rfl

/-- A URL is read by its parts. -/
lemma parseUrl_text (u : UrlText) : parseUrl u.text = some u.parsed := by
  have port : parseUnsigned (2 ^ 16 - 1) u.portText = some u.port.toNat := by
    refine parseUnsigned_iff.mpr ⟨u.plus, u.digits, rfl, u.digits_ne, u.decimal, ?_⟩
    exact Nat.le_sub_one_of_lt u.port.toNat_lt
  have tls : ∀ parsed : Bool → Option ParsedUrl, (if UrlText.scheme u.tls = ascii "tls" then parsed true
      else if UrlText.scheme u.tls = ascii "tcp" then parsed false else none) = parsed u.tls := by
    intro parsed
    cases u.tls with
    | false => exact (if_neg (by decide)).trans (if_pos rfl)
    | true => exact if_pos rfl
  have params : (match u.query with
      | some q => (split (ascii "&") q).foldl queryPair (none, none)
      | none => (none, none)) = (u.param "pubkey", u.param "token") := by
    rw [UrlText.param, UrlText.param]
    cases u.query with
    | none => rfl
    | some q => exact foldl_queryPair q
  have whole : u.query = none → u.rest = u.beforeQ := by
    intro none
    rw [UrlText.rest, none]
    exact List.append_nil _
  rw [parseUrl, u.cut_scheme]
  simp only [Option.bind_eq_bind, Option.bind_some, Option.bind_none, u.cut_query]
  cases query : u.query with
  | none =>
    rw [query] at params
    simp only [Option.map_none, whole query, u.trim_slashes, u.cut_port, Option.bind_some, port,
      if_neg u.host_ne, UInt16.ofNat_toNat]
    rw [UrlText.parsed, ← (Prod.mk.inj params).1, ← (Prod.mk.inj params).2]
    exact tls fun tls => some ⟨tls, u.host, u.port, none, none⟩
  | some q =>
    rw [query] at params
    simp only [Option.map_some, u.trim_slashes, u.cut_port, Option.bind_some, port,
      if_neg u.host_ne, UInt16.ofNat_toNat, params]
    exact tls fun tls => some ⟨tls, u.host, u.port, u.param "pubkey", u.param "token"⟩

/-- The text before the query has a host and a port, and slashes after them. -/
lemma exists_authority {beforeQ host portStr : List UInt8} {port : ℕ}
    (cut : rsplitOnce 0x3A (beforeQ.rdropWhile (· = 0x2F)) = some (host, portStr))
    (read : parseUnsigned (2 ^ 16 - 1) portStr = some port) :
    ∃ plus digits slashes, beforeQ = host ++ 0x3A :: (plusSign plus ++ digits) ++ List.replicate slashes 0x2F ∧
      digits ≠ [] ∧ decimalFrom 0 digits = some (UInt16.ofNat port).toNat := by
  obtain ⟨plus, digits, rfl, ne, decimal, le⟩ := parseUnsigned_iff.mp read
  obtain ⟨slashes, eq⟩ := exists_trimEnd 0x2F beforeQ
  rw [(rsplitOnce_iff.mp cut).1] at eq
  refine ⟨plus, digits, slashes, eq, ne, ?_⟩
  rw [decimal, UInt16.toNat_ofNat_of_lt' (Nat.lt_of_le_of_lt le (by decide))]

/-- What stands before the query is read as a host and a port: the parts are those of a URL. -/
lemma exists_parts {beforeQ : List UInt8} {p : ParsedUrl} {parsed : List UInt8 × List UInt8 → ℕ → ParsedUrl}
    (eq : (do
      let cut ← rsplitOnce 0x3A (beforeQ.rdropWhile (· = 0x2F))
      let port ← parseUnsigned (2 ^ 16 - 1) cut.2
      if cut.1 = [] then none else some (parsed cut port)) = some p)
    (no : 0x3F ∉ beforeQ) (tls : Bool) (query : Option (List UInt8)) :
    ∃ u : UrlText, UrlText.scheme tls ++ ascii "://" ++ (beforeQ ++ UrlText.queryText query) = u.text := by
  obtain ⟨⟨host, portStr⟩, cut, eq⟩ := Option.bind_eq_some_iff.mp eq
  obtain ⟨port, number, eq⟩ := Option.bind_eq_some_iff.mp eq
  obtain ⟨ne, -⟩ := Option.ite_none_left_eq_some.mp eq
  obtain ⟨plus, digits, slashes, before, some, decimal⟩ := exists_authority cut number
  have none : 0x3F ∉ host := fun mem => no (by rw [before]; simp [mem])
  refine ⟨⟨tls, host, plus, digits, UInt16.ofNat port, slashes, query, ne, none, some, decimal⟩, ?_⟩
  rw [before]
  rfl

/-- What is read at all is a URL. -/
lemma exists_text {url : List UInt8} {p : ParsedUrl} (eq : parseUrl url = some p) :
    ∃ u : UrlText, url = u.text := by
  have mark : ascii "?" = [0x3F] := by decide
  rw [parseUrl] at eq
  obtain ⟨⟨scheme, rest⟩, cut, eq⟩ := Option.bind_eq_some_iff.mp eq
  rw [(splitOnce_iff.mp cut).eq]
  obtain ⟨query, beforeQ, whole, no, read⟩ : ∃ query beforeQ, rest = beforeQ ++ UrlText.queryText query ∧
      0x3F ∉ beforeQ ∧ splitOnce (ascii "?") rest = query.map fun q => (beforeQ, q) := by
    rw [mark]
    cases cut : splitOnce [0x3F] rest with
    | none => exact ⟨none, rest, (List.append_nil _).symm, splitOnce_single_none.mp cut, rfl⟩
    | some parts =>
      have cut := splitOnce_iff.mp cut
      refine ⟨some parts.2, parts.1, ?_, cut.not_mem, rfl⟩
      rw [cut.eq, List.append_assoc]
      rfl
  rw [whole]
  -- both schemes go on in the same way, with a query and without
  cases query with
  | none =>
    rw [UrlText.queryText, List.append_nil] at whole
    subst rest
    simp only [read, Option.map_none] at eq
    split at eq
    · rename_i tls
      rw [tls]
      exact exists_parts eq no true none
    · split at eq
      · rename_i tcp
        rw [tcp]
        exact exists_parts eq no false none
      · cases eq
  | some q =>
    simp only [read, Option.map_some] at eq
    split at eq
    · rename_i tls
      rw [tls]
      exact exists_parts eq no true (some q)
    · split at eq
      · rename_i tcp
        rw [tcp]
        exact exists_parts eq no false (some q)
      · cases eq

/-- The texts of the grammar are exactly the URLs that `parse_url` accepts, and each is read by its parts:
the scheme, the host, the port, and the values of the last pairs with the keys `pubkey` and `token`. -/
theorem parseUrl_iff (url : List UInt8) (p : ParsedUrl) :
    parseUrl url = some p ↔ ∃ u : UrlText, url = u.text ∧ p = u.parsed := by
  constructor
  · intro eq
    obtain ⟨u, rfl⟩ := exists_text eq
    rw [parseUrl_text] at eq
    exact ⟨u, rfl, (Option.some.inj eq).symm⟩
  · rintro ⟨u, rfl, rfl⟩
    exact parseUrl_text u

/-- A host with a slash is accepted. -/
theorem slash_in_host :
    ¬ ∀ url p, parseUrl url = some p ↔
      ∃ u : UrlText, url = u.text ∧ p = u.parsed ∧ 0x2F ∉ u.host ∧ u.plus = false := by
  intro documented
  have accepted : parseUrl (ascii "tcp://a/b:80") = some ⟨false, ascii "a/b", 80, none, none⟩ := by
    decide +kernel
  obtain ⟨u, -, parsed, no, -⟩ := (documented _ _).mp accepted
  have host : ascii "a/b" = u.host := congrArg ParsedUrl.host parsed
  rw [← host] at no
  exact no (by decide)

/-- So is a port with a plus sign. -/
example : parseUrl (ascii "tcp://h:+80") = some ⟨false, ascii "h", 80, none, none⟩ := by decide +kernel

end EspcanBr.Autoconnect
