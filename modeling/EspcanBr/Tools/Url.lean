import EspcanBr.Autoconnect.Grammar
import EspcanBr.Tools.Slcan

/-!
# The token URL in the host tools

`parse_url` of `tools/slcan_router_tool.py` and `tools/slcan_tls_proxy.py`, on the bytes of a URL, with
Python's `int`: its limit on the number of digits is a parameter, and so is what it makes of text outside
ASCII (`unicode`). A URL with `tls` that the device accepts is read in the same way by the tools, up to
that limit.
-/

namespace EspcanBr.Tools
open Base Slcan Autoconnect

/-- The digits of `int` after `v`, as `intDigits`, in decimal. -/
def decDigits (v : ℕ) : Bool → List UInt8 → Option ℕ
  | after, [] => if after then some v else none
  | after, c :: cs =>
    if c = ch '_' then if after then decDigits v false cs else none
    else if isDigit c then decDigits (10 * v + (c - 0x30).toNat) true cs
    else none

/-- `int(s)`, for at most `limit` digits, or any number of them if it is 0. -/
def int10 (unicode : List UInt8 → Option ℤ) (limit : ℕ) (s : List UInt8) : Option ℤ :=
  if s.any (0x80 ≤ ·) then unicode s
  else if limit ≠ 0 ∧ limit < s.countP isDigit then none
  else
    match strip s with
    | [] => none
    | c :: cs =>
      if c = ch '-' then (decDigits 0 false cs).map fun n => -n
      else if c = ch '+' then (decDigits 0 false cs).map fun n => n
      else (decDigits 0 false (c :: cs)).map fun n => n

/-- The limit that Python starts with. -/
def DEFAULT_MAX_STR_DIGITS : ℕ := 4300

/-- What `parse_url` exits with, by what its message shows. -/
inductive UrlError where
  | badUrl (url : List UInt8)
  | onlyTls (scheme : List UInt8)
  | missingPort (url : List UInt8)
  | badPort (portStr : List UInt8)
  deriving DecidableEq

/-- What `parse_url` returns. -/
structure Url where
  host : List UInt8
  port : ℤ
  pubkey : Option (List UInt8)
  token : Option (List UInt8)
  deriving DecidableEq

/-- `params` after one more pair of the query. -/
def setParam (params : List UInt8 → Option (List UInt8)) (kv : List UInt8) :
    List UInt8 → Option (List UInt8) :=
  match splitOnce (ascii "=") kv with
  | some (k, v) => fun key => if k = key then some v else params key
  | none => params

/-- `parse_url` of both tools, with `int`. -/
def parseUrl (int : List UInt8 → Option ℤ) (url : List UInt8) : Except UrlError Url :=
  match splitOnce (ascii "://") url with
  | none => .error (.badUrl url)
  | some (scheme, rest) =>
    if scheme ≠ ascii "tls" then .error (.onlyTls scheme)
    else
      let (beforeQ, query) := (splitOnce (ascii "?") rest).getD (rest, [])
      let authority := beforeQ.rdropWhile (· = 0x2F)
      match rsplitOnce 0x3A authority with
      | none => .error (.missingPort url)
      | some (host, portStr) =>
        match int portStr with
        | none => .error (.badPort portStr)
        | some port =>
          let params := (split (ascii "&") query).foldl setParam fun _ => none
          .ok ⟨host, port, params (ascii "pubkey"), params (ascii "token")⟩

/-- `parse_url` of `slcan_router_tool.py`. -/
def SlcanRouterTool.parseUrl : (List UInt8 → Option ℤ) → List UInt8 → Except UrlError Url := Tools.parseUrl

/-- `parse_url` of `slcan_tls_proxy.py`. -/
def SlcanTlsProxy.parseUrl : (List UInt8 → Option ℤ) → List UInt8 → Except UrlError Url := Tools.parseUrl

/-- Both tools end in the result. -/
def ToolsParse (int : List UInt8 → Option ℤ) (url : List UInt8) (result : Except UrlError Url) : Prop :=
  SlcanRouterTool.parseUrl int url = result ∧ SlcanTlsProxy.parseUrl int url = result

/-- What the device reads in a URL, as the tools return it. -/
def seenUrl (p : ParsedUrl) : Url := ⟨p.host, p.port.toNat, p.pubkey, p.token⟩

/-- On plain digits `int` is the number they denote. -/
lemma decDigits_eq {cs : List UInt8} (digits : ∀ c ∈ cs, isDigit c = true) (v : ℕ) (after : Bool)
    (some' : after = true ∨ cs ≠ []) : decDigits v after cs = decimalFrom v cs := by
  have all : ∀ c, isDigit c = true → c ≠ ch '_' ∧ 0x30 ≤ c ∧ c ≤ 0x39 := all_bytes (by decide +kernel)
  induction cs generalizing v after with
  | nil =>
    rcases some' with rfl | ne
    · rfl
    · exact absurd rfl ne
  | cons c cs ih =>
    have digit := digits c List.mem_cons_self
    rw [decDigits, if_neg (all c digit).1, if_pos digit, decimalFrom, if_pos (all c digit).2]
    exact ih (fun c mem => digits c (List.mem_cons_of_mem _ mem)) _ true (.inl rfl)

/-- The port is read as the device reads it, if it has not too many digits. -/
lemma int10_port (unicode : List UInt8 → Option ℤ) (limit : ℕ) (u : UrlText) :
    int10 unicode limit u.portText =
      if limit ≠ 0 ∧ limit < u.digits.length then none else some (u.port.toNat : ℤ) := by
  have digits := decimalFrom_digits u.decimal
  have plain : ∀ c, c = 0x2B ∨ isDigit c = true → isSpace c = false ∧ ¬ 0x80 ≤ c :=
    all_bytes (by decide +kernel)
  have unsigned : ∀ c, isDigit c = true → c ≠ ch '-' ∧ c ≠ ch '+' := all_bytes (by decide +kernel)
  have ascii : u.portText.any (0x80 ≤ ·) = false := by
    rw [List.any_eq_false]
    intro c mem
    simpa using (plain c (u.portText_range c mem)).2
  have count : u.portText.countP isDigit = u.digits.length := by
    have sign : (plusSign u.plus).countP isDigit = 0 := by
      cases u.plus with
      | false => rfl
      | true => rfl
    rw [UrlText.portText, List.countP_append, sign, Nat.zero_add, List.countP_eq_length.mpr digits]
  have none : strip u.portText = u.portText :=
    strip_self fun c mem => (plain c (u.portText_range c mem)).1
  have number : decDigits 0 false u.digits = some u.port.toNat :=
    (decDigits_eq digits 0 false (.inr u.digits_ne)).trans u.decimal
  rw [int10, ascii, count, none, UrlText.portText]
  simp only [Bool.false_eq_true, if_false]
  split
  · rfl
  · cases u.plus with
    | true =>
      have minus : (0x2B : UInt8) ≠ ch '-' := by decide
      simp only [plusSign, if_true, List.singleton_append, if_neg minus, number]
      rfl
    | false =>
      obtain ⟨c, cs, eq⟩ := List.exists_cons_of_ne_nil u.digits_ne
      obtain ⟨minus, plus⟩ := unsigned c (digits c (by simp [eq]))
      rw [eq] at number
      simp only [plusSign, Bool.false_eq_true, if_false, List.nil_append, eq, if_neg minus, if_neg plus, number]
      rfl

/-- The query is read by its last pairs. -/
lemma foldl_setParam (query key : List UInt8) :
    (split (ascii "&") query).foldl setParam (fun _ => none) key = formLast (formPairs query) key := by
  have sep : ascii "&" = [0x26] := by decide
  have sign : ascii "=" = [0x3D] := by decide
  rw [sep]
  refine foldl_formLast (fun params : List UInt8 → Option (List UInt8) => params key) (fun params piece => ?_)
    rfl query
  rw [setParam, sign]
  cases splitOnce [0x3D] piece with
  | none => rfl
  | some cut => rfl

/-- A URL of the device is read by its parts, up to its port. -/
lemma parseUrl_text (int : List UInt8 → Option ℤ) {u : UrlText} (tls : u.tls = true) :
    Tools.parseUrl int u.text =
      match int u.portText with
      | none => .error (.badPort u.portText)
      | some port => .ok ⟨u.host, port, u.param "pubkey", u.param "token"⟩ := by
  have cut : (splitOnce (ascii "?") u.rest).getD (u.rest, []) = (u.beforeQ, u.query.getD []) := by
    rw [u.cut_query, UrlText.rest]
    cases u.query with
    | none => simp [UrlText.queryText]
    | some q => rfl
  have params : ∀ key, (split (ascii "&") (u.query.getD [])).foldl setParam (fun _ => none) (ascii key) =
      u.param key := by
    intro key
    rw [foldl_setParam, UrlText.param]
    cases u.query with
    | none => exact formLast_concat [] [] (ascii key)
    | some q => rfl
  rw [Tools.parseUrl, u.cut_scheme, tls]
  simp only [UrlText.scheme, if_true, ne_eq, not_true_eq_false, if_false, cut, u.trim_slashes, u.cut_port,
    params]

/-- A URL of the device with `tls` is read by the tools as the device reads it, if the limit of `int` is
not below the number of digits of its port, and refused for its port otherwise. -/
theorem tools_read_url (unicode : List UInt8 → Option ℤ) (limit : ℕ) {url : List UInt8} {p : ParsedUrl}
    (accepted : Autoconnect.parseUrl url = some p) (tls : p.tls = true) :
    ∃ u : UrlText, url = u.text ∧ p = u.parsed ∧ u.digits.length ≤ url.length ∧
      (limit = 0 ∨ u.digits.length ≤ limit → ToolsParse (int10 unicode limit) url (.ok (seenUrl p))) ∧
      (¬ (limit = 0 ∨ u.digits.length ≤ limit) →
        ToolsParse (int10 unicode limit) url (.error (.badPort u.portText))) := by
  obtain ⟨u, rfl, rfl⟩ := (parseUrl_iff url p).mp accepted
  have read := parseUrl_text (int10 unicode limit) tls
  rw [int10_port] at read
  refine ⟨u, rfl, rfl, ?_, fun few => ?_, fun many => ?_⟩
  · simp only [UrlText.text, UrlText.rest, UrlText.beforeQ, UrlText.authority, UrlText.portText,
      List.length_append, List.length_cons]
    omega
  · rw [if_neg (by omega)] at read
    exact ⟨read, read⟩
  · rw [if_pos (by omega)] at read
    exact ⟨read, read⟩

theorem tools_read_url_token :
    ToolsParse (int10 (fun _ => none) DEFAULT_MAX_STR_DIGITS) (ascii "tls://h:080//?token=a&token=b")
      (.ok ⟨ascii "h", 80, none, some (ascii "b")⟩) := by
  have accepted : Autoconnect.parseUrl (ascii "tls://h:080//?token=a&token=b") =
      some ⟨true, ascii "h", 80, none, some (ascii "b")⟩ := by
    decide +kernel
  obtain ⟨u, -, -, short, read, -⟩ := tools_read_url (fun _ => none) DEFAULT_MAX_STR_DIGITS accepted rfl
  exact read (.inr (short.trans (by decide)))

lemma decimalFrom_zeros (n : ℕ) : decimalFrom 0 (List.replicate n 0x30) = some 0 := by
  induction n with
  | zero => rfl
  | succ n ih =>
    rw [List.replicate_succ, decimalFrom, if_pos (by decide)]
    exact ih

/-- A port of 4301 zeros. -/
def longUrl : UrlText where
  tls := true
  host := ascii "h"
  plus := false
  digits := List.replicate 4301 0x30
  port := 0
  slashes := 0
  query := none
  host_ne := by decide
  host_query := by decide
  digits_ne := List.cons_ne_nil _ _
  decimal := decimalFrom_zeros 4301

/-- The device accepts it, and the tools do not. -/
theorem long_port_refused :
    ¬ ∀ unicode url p, Autoconnect.parseUrl url = some p → p.tls = true →
      ToolsParse (int10 unicode DEFAULT_MAX_STR_DIGITS) url (.ok (seenUrl p)) := by
  intro same
  have accepted := (same (fun _ => none) _ _ (Autoconnect.parseUrl_text longUrl) rfl).1
  have long : DEFAULT_MAX_STR_DIGITS ≠ 0 ∧ DEFAULT_MAX_STR_DIGITS < longUrl.digits.length := by
    rw [longUrl, List.length_replicate]
    decide
  have read := parseUrl_text (int10 (fun _ => none) DEFAULT_MAX_STR_DIGITS) (u := longUrl) rfl
  rw [int10_port, if_pos long] at read
  cases read.symm.trans accepted

end EspcanBr.Tools
