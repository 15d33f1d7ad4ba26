import EspcanBr.Base.Message
import EspcanBr.Base.Utf8
import EspcanBr.Http.Pages
import EspcanBr.Http.Saves

/-!
# The framing of the answers

A client finds the end of an answer by its headers, as `handle_request` finds the end of a request. Every
answer of the web server announces the length of what follows its headers, the pages with whatever texts
and numbers they show and the fixed answers with the numbers that the source has in them
(`answers_framed`).
-/

namespace EspcanBr.Http
open Base Config

/-- The bytes of an answer, where a page shows the statics `live` and the texts `t`. -/
def answerBytes (live : Live) (d : Device) (t : Strings) : Response → List UInt8
  | .text bytes => bytes
  | .indexPage => utf8 (indexPage live d t)
  | .statusJson => utf8 (statusJson live t)

/-- The codes of the answers. -/
def CODES : List ℕ := [200, 400, 401, 404, 500]

/-- The answer is a status line with one of the codes, headers, and as many bytes as these announce, in
the way in which the server reads the headers of a request. -/
def framed (answer : List UInt8) : Bool :=
  match splitOnce BREAK answer with
  | some (headers, body) =>
    contentLength (headers ++ BREAK) = some body.length ∧
      CODES.any fun code => (ascii "HTTP/1.1 " ++ decimal code ++ ascii " ").isPrefixOf headers
  | none => false

lemma utf8_append (s t : List Char) : utf8 (s ++ t) = utf8 s ++ utf8 t := List.flatMap_append

/-- Plain characters are their bytes. -/
lemma utf8_plain {s : List Char} (plain : ∀ c ∈ s, c.toNat < 0x80) : utf8 s = s.map Char.toUInt8 := by
  induction s with
  | nil => rfl
  | cons c s ih =>
    rw [List.forall_mem_cons] at plain
    have one : String.utf8EncodeChar c = [c.toUInt8] := by
      have le : c.val.toNat ≤ 0x7f := Nat.le_of_lt_succ plain.1
      rw [String.utf8EncodeChar]
      simp only [le, if_true]
      rfl
    rw [utf8, List.flatMap_cons, one, List.map_cons, ← ih plain.2]
    rfl

lemma utf8_number (n : ℕ) : utf8 (number n) = decimal n := by
  apply utf8_plain
  intro c mem
  have digit := Nat.isDigit_of_mem_toDigits (by decide) le_rfl mem
  simp only [Char.isDigit, ge_iff_le, Bool.and_eq_true, decide_eq_true_eq] at digit
  have le : c.val.toNat ≤ 57 := UInt32.le_iff_toNat_le.mp digit.2
  exact Nat.lt_of_le_of_lt le (by decide)

/-- The header of a page. -/
def pageLines (contentType : String) (n : ℕ) : List (List UInt8) :=
  [ascii "HTTP/1.1 200 OK", ascii "Content-Type: " ++ ascii contentType, ascii "Content-Length: " ++ decimal n,
    ascii "Connection: close"]

/-- The types of the pages. -/
def PageType (contentType : String) : Prop := contentType = "text/html" ∨ contentType = "application/json"

lemma utf8_okResponse {contentType : String} (page : PageType contentType) (body : List Char) :
    utf8 (okResponse contentType body) = message (pageLines contentType (utf8 body).length) (utf8 body) := by
  have plain : ∀ {s : String} {l : List Char}, s = String.ofList l → (l.all fun c => c.toNat < 0x80) = true →
      utf8 s.toList = ascii s := by
    intro s l literal all
    rw [← toList_literal literal] at all
    exact utf8_plain fun c mem => of_decide_eq_true (List.all_eq_true.mp all c mem)
  have type : utf8 contentType.toList = ascii contentType := by
    rcases page with rfl | rfl
    · exact plain rfl (by decide)
    · exact plain rfl (by decide)
  have first : ascii "HTTP/1.1 200 OK\r\nContent-Type: " =
      ascii "HTTP/1.1 200 OK" ++ ascii "\r\n" ++ ascii "Content-Type: " := by
    repeat rw [ascii_literal rfl]
    rfl
  have second : ascii "\r\nContent-Length: " = ascii "\r\n" ++ ascii "Content-Length: " := by
    repeat rw [ascii_literal rfl]
    rfl
  have last : ascii "\r\nConnection: close\r\n\r\n" =
      ascii "\r\n" ++ ascii "Connection: close" ++ ascii "\r\n\r\n" := by
    repeat rw [ascii_literal rfl]
    rfl
  unfold okResponse
  generalize (utf8 body).length = n
  simp only [utf8_append, utf8_number, type]
  rw [plain rfl (by decide), plain rfl (by decide), plain rfl (by decide), first, second, last, message,
    pageLines, joinLines_cons, joinLines_cons, joinLines_cons, joinLines, List.intercalate_singleton, CRLF]
  simp only [List.append_assoc]

/-- A line of a header of an answer: nothing in it is special. -/
def PlainLine (line : List UInt8) : Prop := line ≠ [] ∧ ∀ b ∈ line, b < 0x80 ∧ b ≠ 0x0D

/-- The characters of a plain line that is a literal. -/
def plainText (l : List Char) : Bool := l ≠ [] ∧ l.all fun c => c.toNat < 0x80 ∧ c.toNat ≠ 0x0D

lemma plainText_line {s : String} (plain : plainText s.toList = true) : PlainLine (ascii s) := by
  simp only [plainText, List.all_eq_true, decide_eq_true_eq] at plain
  obtain ⟨ne, all⟩ := plain
  refine ⟨List.map_eq_nil_iff.not.mpr ne, fun b mem => ?_⟩
  obtain ⟨c, among, rfl⟩ := List.mem_map.mp mem
  obtain ⟨lt, cr⟩ := all c among
  have value : c.toUInt8.toNat = c.toNat := by
    have small : c.toNat < 2 ^ 8 := by omega
    exact Nat.mod_eq_of_lt small
  refine ⟨?_, fun eq => ?_⟩
  · rw [UInt8.lt_iff_toNat_lt, value]
    exact lt
  · rw [eq] at value
    exact cr value.symm

/-- No byte of a header is special. -/
lemma pageLines_plain {contentType : String} (page : PageType contentType) (n : ℕ) :
    ∀ line ∈ pageLines contentType n, PlainLine line := by
  have digits : ∀ b ∈ decimal n, b < 0x80 ∧ b ≠ 0x0D := by
    intro b mem
    have digit := isDigit_decimal mem
    simp only [isDigit, Bool.decide_and, Bool.and_eq_true, decide_eq_true_eq] at digit
    obtain ⟨low, high⟩ := digit
    refine ⟨UInt8.lt_of_le_of_lt high (by decide), fun cr => ?_⟩
    rw [cr] at low
    exact absurd low (by decide)
  have text : ∀ {s : String} {l : List Char}, s = String.ofList l → plainText l = true →
      PlainLine (ascii s) := by
    intro s l literal plain
    rw [← toList_literal literal] at plain
    exact plainText_line plain
  have both : ∀ {s rest : List UInt8}, PlainLine s → (∀ b ∈ rest, b < 0x80 ∧ b ≠ 0x0D) →
      PlainLine (s ++ rest) := by
    rintro s rest ⟨ne, plain⟩ other
    refine ⟨List.append_ne_nil_of_left_ne_nil ne _, fun b mem => ?_⟩
    rcases List.mem_append.mp mem with front | back
    · exact plain b front
    · exact other b back
  have type : PlainLine (ascii contentType) := by
    rcases page with rfl | rfl
    · exact text rfl (by decide)
    · exact text rfl (by decide)
  simp only [pageLines, List.forall_mem_cons, List.not_mem_nil, false_implies, implies_true, and_true]
  exact ⟨text rfl (by decide), both (text rfl (by decide)) type.2, both (text rfl (by decide)) digits,
    text rfl (by decide)⟩

/-- The line with the length is the one that is read. -/
lemma lengthLine_decimal {n : ℕ} (le : n ≤ USIZE_MAX) :
    lengthLine (ascii "Content-Length: " ++ decimal n) = some n := by
  have cut : splitOnce (ascii ":") (ascii "Content-Length: " ++ decimal n) =
      some (ascii "Content-Length", 0x20 :: decimal n) := by
    have colon : ascii ":" = [0x3A] := by decide
    have front : ascii "Content-Length: " = ascii "Content-Length" ++ [0x3A, 0x20] := by
      repeat rw [ascii_literal rfl]
      rfl
    have no : 0x3A ∉ ascii "Content-Length" := by
      rw [ascii_literal rfl]
      decide
    rw [colon, front, List.append_assoc]
    exact splitOnce_iff.mpr (.of_not_mem no _)
  have key : eqIgnoreAsciiCase (trim (ascii "Content-Length")) (ascii "content-length") = true := by
    repeat rw [ascii_literal rfl]
    decide +kernel
  simp only [lengthLine, cut, Option.bind_eq_bind, Option.bind_some, key, if_true, trim_decimal,
    parseUnsigned_decimal le]

/-- A message is framed if its lines are plain, the first one has one of the codes, and the length that they
announce is that of the body. -/
lemma framed_message {status : List UInt8} {lines : List (List UInt8)} {body : List UInt8} {code : ℕ}
    (plain : ∀ line ∈ status :: lines, PlainLine line) (coded : code ∈ CODES)
    (starts : (ascii "HTTP/1.1 " ++ decimal code ++ ascii " ").isPrefixOf status = true)
    (length : (status :: lines).findSome? lengthLine = some body.length) :
    framed (message (status :: lines) body) = true := by
  have ne : status :: lines ≠ [] := List.cons_ne_nil _ _
  have header : ∀ line ∈ status :: lines, HeaderLine line := by
    intro line mem
    exact ⟨fun cr => ((plain line mem).2 _ cr).2 rfl, (plain line mem).1⟩
  have cut := splitOnce_iff.mpr (firstSplit_message ne header body)
  have valid : validUtf8 (joinLines (status :: lines) ++ BREAK) = true := by
    have crlf : ∀ b ∈ CRLF, b < 0x80 := by
      rw [CRLF, ascii_literal rfl]
      decide +kernel
    have break_ : ∀ b ∈ BREAK, b < 0x80 := by
      rw [BREAK, ascii_literal rfl]
      decide +kernel
    apply validUtf8_ascii
    intro b mem
    rcases List.mem_append.mp mem with front | ends
    · rcases mem_joinLines front with ends | ⟨line, among, here⟩
      · exact crlf b ends
      · exact ((plain line among).2 b here).1
    · exact break_ b ends
  have announced : contentLength (joinLines (status :: lines) ++ BREAK) = some body.length := by
    have pieces := split_lines ne header
    rw [CRLF] at pieces
    rw [contentLength, if_pos valid, BREAK, pieces, List.findSome?_append, length]
    rfl
  have first : (ascii "HTTP/1.1 " ++ decimal code ++ ascii " ").isPrefixOf (joinLines (status :: lines)) =
      true := by
    apply List.isPrefixOf_iff_prefix.mpr
    refine (List.isPrefixOf_iff_prefix.mp starts).trans ?_
    cases lines with
    | nil => rw [joinLines, List.intercalate_singleton]
    | cons next lines =>
      rw [joinLines_cons, List.append_assoc]
      exact List.prefix_append _ _
  rw [framed, BREAK, cut]
  simp only [Bool.decide_and, Bool.and_eq_true, decide_eq_true_eq, List.any_eq_true]
  exact ⟨announced, code, coded, first⟩

/-- A page is framed, if its length fits the machine. -/
lemma framed_okResponse {contentType : String} (page : PageType contentType) {body : List Char}
    (fits : (utf8 body).length ≤ USIZE_MAX) : framed (utf8 (okResponse contentType body)) = true := by
  have status : lengthLine (ascii "HTTP/1.1 200 OK") = none := by
    rw [ascii_literal rfl]
    decide +kernel
  have type : lengthLine (ascii "Content-Type: " ++ ascii contentType) = none := by
    rcases page with rfl | rfl
    · repeat rw [ascii_literal rfl]
      decide +kernel
    · repeat rw [ascii_literal rfl]
      decide +kernel
  rw [utf8_okResponse page]
  refine framed_message (pageLines_plain page _) (by decide : 200 ∈ CODES) ?_ ?_
  · repeat rw [ascii_literal rfl]
    decide +kernel
  simp only [List.findSome?_cons, status, type, lengthLine_decimal fits]

lemma length_utf8_le (s : List Char) : (utf8 s).length ≤ 4 * s.length := by
  induction s with
  | nil => exact Nat.le_refl _
  | cons c s ih =>
    have one : (String.utf8EncodeChar c).length ≤ 4 := by
      rw [String.length_utf8EncodeChar]
      exact Char.utf8Size_le_four c
    rw [utf8, List.flatMap_cons, List.length_append, List.length_cons]
    rw [utf8] at ih
    omega

lemma length_le_utf8 (s : List Char) : s.length ≤ (utf8 s).length := by
  induction s with
  | nil => exact Nat.le_refl _
  | cons c s ih =>
    have one : 0 < (String.utf8EncodeChar c).length := by
      rw [String.length_utf8EncodeChar]
      exact Char.utf8Size_pos c
    rw [utf8, List.flatMap_cons, List.length_append, List.length_cons]
    rw [utf8] at ih
    omega

/-- The length of a filled template. -/
lemma length_fill (parts : List (List String)) (values : List (List Char)) {n : ℕ}
    (le : ∀ v ∈ values, v.length ≤ n) :
    (fill parts values).length ≤ (parts.map fun p => (partText p).length).sum + values.length * n := by
  induction parts generalizing values with
  | nil => exact Nat.zero_le _
  | cons part parts ih =>
    cases values with
    | nil =>
      have rest := ih [] nofun
      simp only [fill, List.length_append, List.map_cons, List.sum_cons, List.length_nil] at rest ⊢
      omega
    | cons v values =>
      rw [List.forall_mem_cons] at le
      have rest := ih values le.2
      have here := le.1
      simp only [fill, List.length_append, List.map_cons, List.sum_cons, List.length_cons, Nat.add_mul] at rest ⊢
      omega

/-- Escaped texts are at most six times as long. -/
lemma length_flatMap_le {f : Char → List Char} {n : ℕ} (le : ∀ c, (f c).length ≤ n) (s : List Char) :
    (s.flatMap f).length ≤ n * s.length := by
  induction s with
  | nil => exact Nat.le_refl _
  | cons c s ih =>
    have here := le c
    rw [List.flatMap_cons, List.length_append, List.length_cons, Nat.mul_add, Nat.mul_one]
    omega

lemma length_htmlEscape (s : List Char) : (htmlEscape s).length ≤ 6 * s.length := by
  apply length_flatMap_le
  intro c
  rw [htmlEscapeChar]
  split_ifs <;> simp

lemma length_jsonEscape (s : List Char) : (jsonEscape s).length ≤ 6 * s.length := by
  apply length_flatMap_le
  intro c
  rw [jsonEscapeChar]
  split_ifs with _ _ _ _ _ control
  all_goals try simp
  -- four digits stand for a control character
  rw [(hex4_spec control).1]
  simp

lemma length_number (v : UInt32) : (number v.toNat).length ≤ 10 :=
  Nat.toDigits_length 10 _ 10 (by decide) (Nat.lt_of_lt_of_le v.toNat_lt (by decide))

/-- What an accessor returns is not longer than its buffer. -/
lemma length_slice {n : ℕ} {b : Buffer n} {len : ℕ} {text : List UInt8} (eq : b.slice len = some text) :
    text.length ≤ n := by
  rw [Buffer.slice] at eq
  split at eq
  · cases eq
    rw [List.length_take, b.length_eq]
    exact Nat.min_le_right _ _
  · cases eq

/-- The texts are short. -/
lemma Reads.short {d : Device} {t : Strings} (reads : Reads d t) : t.ssid.length ≤ 256 ∧
    t.name.length ≤ 256 ∧ t.url.length ≤ 256 ∧ t.user.length ≤ 256 := by
  have bound : ∀ {s : List Char} {bytes : List UInt8}, bytes = utf8 s → bytes.length ≤ 256 →
      s.length ≤ 256 := by
    rintro s _ rfl le
    exact (length_le_utf8 s).trans le
  have text : ∀ {n : ℕ} {b : Buffer n} {len : UInt8} {empty bytes : List UInt8}, n ≤ 256 →
      empty.length ≤ 256 → (if len = 0 then some empty else b.slice len.toNat) = some bytes →
      bytes.length ≤ 256 := by
    intro n b len empty bytes le small eq
    split at eq
    · cases eq
      exact small
    · exact (length_slice eq).trans le
  refine ⟨bound rfl (text (by decide) (by decide) reads.ssid),
    bound rfl (text (by decide) (by decide) reads.name), ?_, bound rfl (text (by decide) (by decide) reads.user)⟩
  refine bound reads.url ?_
  rw [AutoConnectConfig.urlStr]
  split
  · rw [List.length_take, d.autoconnect.url.length_eq]
    exact Nat.min_le_right _ _
  · exact Nat.zero_le _

lemma length_modeText (live : Live) : (modeText live).length ≤ 1536 := by
  rw [modeText]
  split
  · rw [toList_literal rfl]
    decide
  · rw [toList_literal rfl]
    decide

lemma length_addressText (live : Live) : (addressText live).length ≤ 1536 := by
  rw [addressText]
  split
  · rename_i ip _
    have byte (b : UInt8) : (number b.toNat).length ≤ 3 :=
      Nat.toDigits_length 10 _ 3 (by decide) (Nat.lt_of_lt_of_le b.toNat_lt (by decide))
    have a := byte ip.a
    have b := byte ip.b
    have c := byte ip.c
    have d := byte ip.d
    simp only [address, Mdns.Ipv4Addr.octets, List.map_cons, List.map_nil, List.intercalate_cons_cons,
      List.intercalate_singleton, List.length_append, List.length_singleton]
    omega
  · rw [toList_literal rfl]
    decide

lemma length_stateText (live : Live) : (stateText live).length ≤ 1536 := by
  rw [stateText, stateStr]
  split_ifs
  all_goals
    rw [toList_literal rfl]
    decide

lemma length_keyText (live : Live) {missing : String} (short : missing.toList.length ≤ 1536) :
    (keyText live missing).length ≤ 1536 := by
  rw [keyText]
  split
  · rename_i key _
    have two : ∀ b : UInt8, (hexByte b).length = 2 := fun _ => rfl
    rw [List.length_flatMap]
    simp [two]
  · exact short

/-- The values that a page shows. -/
lemma length_pageValues (live : Live) {d : Device} {t : Strings} (reads : Reads d t) :
    ∀ v ∈ pageValues live d t, v.length ≤ 1536 := by
  obtain ⟨ssid, name, url, -⟩ := reads.short
  have number (v : UInt32) : (number v.toNat).length ≤ 1536 := (length_number v).trans (by decide)
  have escaped {s : List Char} (le : s.length ≤ 256) : (htmlEscape s).length ≤ 1536 := by
    have len := length_htmlEscape s
    omega
  have yesNo : (if live.wifiConnected then "yes".toList else "no".toList).length ≤ 1536 := by
    split <;> decide
  have checked : (if d.autoconnect.enableSet then "checked".toList else []).length ≤ 1536 := by
    split <;> decide
  simp only [pageValues, List.forall_mem_cons, List.not_mem_nil, false_implies, implies_true, and_true]
  exact ⟨length_modeText live, yesNo, length_addressText live, escaped ssid, number _, number _, number _,
    number _, number _, number _, escaped name, escaped name, number _, length_stateText live,
    length_keyText live (by decide), checked, escaped url⟩

lemma length_loginValues {d : Device} {t : Strings} (reads : Reads d t) :
    ∀ v ∈ loginValues d t, v.length ≤ 1536 := by
  obtain ⟨-, -, -, user⟩ := reads.short
  have escaped : (htmlEscape t.user).length ≤ 1536 := by
    have len := length_htmlEscape t.user
    omega
  have state : (if d.auth.isSet then "enabled"
      else "disabled (anyone on the network can read this page)").toList.length ≤ 1536 := by
    split
    · rw [toList_literal rfl]
      decide
    · rw [toList_literal rfl]
      decide
  simp only [loginValues, List.forall_mem_cons, List.not_mem_nil, false_implies, implies_true, and_true]
  exact ⟨state, escaped⟩

lemma indexBody_fits (live : Live) {d : Device} {t : Strings} (reads : Reads d t) :
    (utf8 (indexBody live d t)).length ≤ USIZE_MAX := by
  have page := length_fill PAGE _ (length_pageValues live reads)
  have login := length_fill LOGIN _ (length_loginValues reads)
  have parts : (PAGE.map fun p => (partText p).length).sum ≤ 10000 := by
    simp only [PAGE, partText, List.map_cons, List.map_nil, List.flatMap_cons, List.flatMap_nil]
    repeat rw [toList_literal rfl]
    decide +kernel
  have loginParts : (LOGIN.map fun p => (partText p).length).sum ≤ 10000 := by
    simp only [LOGIN, partText, List.map_cons, List.map_nil, List.flatMap_cons, List.flatMap_nil]
    repeat rw [toList_literal rfl]
    decide +kernel
  have script : (partText STATUS_SCRIPT).length ≤ 10000 := by
    simp only [STATUS_SCRIPT, partText, List.flatMap_cons, List.flatMap_nil]
    repeat rw [toList_literal rfl]
    decide +kernel
  have seventeen : (pageValues live d t).length = 17 := rfl
  have two : (loginValues d t).length = 2 := rfl
  have bytes := length_utf8_le (indexBody live d t)
  have body : (indexBody live d t).length ≤ 100000 := by
    rw [indexBody, List.length_append, List.length_append]
    rw [seventeen] at page
    rw [two] at login
    omega
  rw [USIZE_MAX]
  omega

lemma statusBody_fits (live : Live) {d : Device} {t : Strings} (reads : Reads d t) :
    (utf8 (statusBody live t)).length ≤ USIZE_MAX := by
  obtain ⟨ssid, -, -, -⟩ := reads.short
  have number (v : UInt32) : (number v.toNat).length ≤ 1536 := (length_number v).trans (by decide)
  have escaped : (jsonEscape t.ssid).length ≤ 1536 := by
    have len := length_jsonEscape t.ssid
    omega
  have flag : (if live.wifiConnected then "true".toList else "false".toList).length ≤ 1536 := by
    split <;> decide
  have values : ∀ v ∈ [modeText live, if live.wifiConnected then "true".toList else "false".toList,
      addressText live, jsonEscape t.ssid, Http.number live.canRx.toNat, Http.number live.canTx.toNat,
      Http.number live.serIn.toNat, Http.number live.serOut.toNat, Http.number live.tcpIn.toNat,
      Http.number live.tcpOut.toNat, stateText live, keyText live ""], v.length ≤ 1536 := by
    simp only [List.forall_mem_cons, List.not_mem_nil, false_implies, implies_true, and_true]
    exact ⟨length_modeText live, flag, length_addressText live, escaped, number _, number _, number _, number _,
      number _, number _, length_stateText live, length_keyText live (by decide)⟩
  have body := length_fill STATUS _ values
  have parts : (STATUS.map fun p => (partText p).length).sum ≤ 10000 := by
    simp only [STATUS, partText, List.map_cons, List.map_nil, List.flatMap_cons, List.flatMap_nil]
    repeat rw [toList_literal rfl]
    decide +kernel
  have bytes := length_utf8_le (statusBody live t)
  rw [statusBody] at bytes ⊢
  simp only [List.length_cons, List.length_nil] at body
  rw [USIZE_MAX]
  omega

/-- The answers that are not a page. -/
def fixedAnswers : List Response :=
  [unauthorized, notFound, badRequest, badName, badUser, saveFailed, loginSaved true, loginSaved false]

/-- Their codes, lines and bodies. -/
def fixedParts : List (ℕ × String × List String × String) :=
  let type := "Content-Type: text/plain"
  let close := "Connection: close"
  [(401, "HTTP/1.1 401 Unauthorized", ["WWW-Authenticate: Basic realm=\"espcan_br\"", type,
      "Content-Length: 25", close], "Authentication required.\n"),
    (404, "HTTP/1.1 404 Not Found", ["Content-Length: 0"], ""),
    (400, "HTTP/1.1 400 Bad Request", ["Content-Length: 0"], ""),
    (400, "HTTP/1.1 400 Bad Request", [type, "Content-Length: 9"], "bad name\n"),
    (400, "HTTP/1.1 400 Bad Request", [type, "Content-Length: 29", close], "username may not contain ':'\n"),
    (500, "HTTP/1.1 500 Internal Server Error", ["Content-Length: 12"], "save failed\n"),
    (200, "HTTP/1.1 200 OK", [type, "Content-Length: 20", close], "Web login disabled.\n"),
    (200, "HTTP/1.1 200 OK", [type, "Content-Length: 19", close], "Web login updated.\n")]

lemma fixed_framed {bytes : List UInt8} (fixed : .text bytes ∈ fixedAnswers) : framed bytes = true := by
  have cut : fixedAnswers = fixedParts.map fun (_, status, lines, body) =>
      .text (message (ascii status :: lines.map ascii) (ascii body)) := by
    simp only [fixedAnswers, fixedParts, unauthorized, notFound, badRequest, badName, badUser, saveFailed,
      loginSaved, plain, message, joinLines, CRLF, List.map_cons, List.map_nil, if_true, Bool.false_eq_true,
      if_false]
    repeat rw [ascii_literal rfl]
    rfl
  have texts : ∀ part ∈ fixedParts, ∀ s ∈ part.2.1 :: part.2.2.1, plainText s.toList = true := by
    simp only [fixedParts, plainText, List.forall_mem_cons]
    repeat rw [toList_literal rfl]
    decide +kernel
  have checks : ∀ part ∈ fixedParts, part.1 ∈ CODES ∧
      (ascii "HTTP/1.1 " ++ decimal part.1 ++ ascii " ").isPrefixOf (ascii part.2.1) = true ∧
      (ascii part.2.1 :: part.2.2.1.map ascii).findSome? lengthLine = some (ascii part.2.2.2).length := by
    simp only [fixedParts, List.forall_mem_cons, List.map_cons, List.map_nil]
    repeat rw [ascii_literal rfl]
    decide +kernel
  rw [cut] at fixed
  obtain ⟨⟨code, status, lines, body⟩, mem, eq⟩ := List.mem_map.mp fixed
  obtain ⟨coded, starts, length⟩ := checks _ mem
  cases eq
  refine framed_message (fun line among => ?_) coded starts length
  obtain ⟨s, text, rfl⟩ := List.mem_map.mp (List.map_cons ▸ among)
  exact plainText_line (texts _ mem s text)

/-- What a request is answered with. -/
lemma respond_answers {sha256 : List UInt8 → List UInt8} {io : Io} {d : Device} {request : List UInt8}
    {r : Response} (answer : (respond sha256 io d request).outcome = some (.response r)) :
    r = .indexPage ∨ r = .statusJson ∨ r ∈ fixedAnswers := by
  have pages : ∀ method path, route method path = .page r → r = .indexPage ∨ r = .statusJson ∨ r ∈ fixedAnswers := by
    intro method path goes
    rw [route] at goes
    split_ifs at goes
    all_goals cases goes
    · exact .inl rfl
    · exact .inr (.inl rfl)
    · exact .inr (.inr (by simp [fixedAnswers]))
  have saves : ∀ outcome, outcome = .response r → Refused outcome ∨ Failed outcome ∨ Succeeded outcome →
      r ∈ fixedAnswers := by
    rintro _ rfl ends
    rcases ends with (eq | eq | eq) | eq | eq | ⟨disabled, eq⟩
    · cases eq
      simp [fixedAnswers]
    · cases eq
      simp [fixedAnswers]
    · cases eq
      simp [fixedAnswers]
    · cases eq
      simp [fixedAnswers]
    · cases eq
    · cases eq
      cases disabled <;> simp [fixedAnswers]
  rw [respond] at answer
  split at answer
  · cases answer
  · cases answer
    exact .inr (.inr List.mem_cons_self)
  · simp only at answer
    split at answer
    · rename_i goes
      cases answer
      exact pages _ _ goes
    · rename_i h _
      exact .inr (.inr (saves _ (Option.some.inj answer) (run_ends sha256 h io d _).ends))

/-- The answers. Every answer to any request, on a device in whatever state, is a status line with one of
five codes, headers, and exactly as many bytes as the headers announce, when they are read as the server
reads the headers of a request; the pages show whatever statics and texts there are. -/
theorem answers_framed (sha256 : List UInt8 → List UInt8) (io : Io) (d : Device) (request : List UInt8) :
    ∀ r, (respond sha256 io d request).outcome = some (.response r) → ∀ live t,
      (r = .indexPage ∨ r = .statusJson → Reads (respond sha256 io d request).device t) →
      framed (answerBytes live (respond sha256 io d request).device t r) = true := by
  intro r answer live t reads
  cases r with
  | text bytes =>
    rcases respond_answers answer with page | status | fixed
    · cases page
    · cases status
    · exact fixed_framed fixed
  | indexPage => exact framed_okResponse (.inl rfl) (indexBody_fits live (reads (.inl rfl)))
  | statusJson => exact framed_okResponse (.inr rfl) (statusBody_fits live (reads (.inr rfl)))

/-- The statics of a new device. -/
def Live.new : Live := ⟨true, false, none, 0, 0, 0, 0, 0, 0, 0, none⟩

/-- A device with a configuration of every kind, with the button held. -/
def shownDevice : Device where
  wifi := WifiConfig.new.setCredentials (utf8 "Büro".toList) (ascii "secret")
  device := DeviceConfig.defaults.set (ascii "can-1") 921600
  autoconnect := AutoConnectConfig.new.set true (ascii "tls://10.0.0.1:4433/?token=a&b")
  auth := AuthConfig.new.set id (fun _ => 0) (utf8 "rené".toList) (ascii "b")
  flash := fun _ => 0xFF
  gpio0Held := true

/-- Its texts. -/
def shownTexts : Strings := ⟨"Büro".toList, "can-1".toList, "tls://10.0.0.1:4433/?token=a&b".toList, "rené".toList⟩

/-- Its statics, with the key of a server. -/
def shownLive : Live :=
  { Live.new with
    wifiConnected := true
    staIp := some ⟨10, 0, 0, 7⟩
    canRx := 12345
    autoconnectState := 6
    serverPubkey := some ⟨0x04 :: List.replicate 64 0xAB, by decide⟩ }

/-- A client that asks for the page. -/
def pageRequest : List UInt8 := ascii "GET / HTTP/1.1\r\n\r\n"

/-- The page of that device. -/
theorem answers_framed_page :
    framed (answerBytes shownLive (respond id ⟨.noPartition, fun _ => 0⟩ shownDevice pageRequest).device shownTexts
      .indexPage) = true := by
  have answer : (respond id ⟨.noPartition, fun _ => 0⟩ shownDevice pageRequest).outcome =
      some (.response .indexPage) := by
    decide +kernel
  refine answers_framed id _ shownDevice pageRequest .indexPage answer shownLive shownTexts fun _ => ?_
  exact ⟨by decide +kernel, by decide +kernel, by decide +kernel, by decide +kernel⟩

end EspcanBr.Http
