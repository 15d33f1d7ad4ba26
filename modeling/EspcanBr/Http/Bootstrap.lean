import EspcanBr.Autoconnect.Grammar
import EspcanBr.Autoconnect.Task
import EspcanBr.Http.Fields
import EspcanBr.Http.Framing

/-!
# From the key on the page to the pin

The way the key of a server goes to become the pin: the task publishes the key that it found in a certificate,
the page shows it, the user puts it into the URL as its `pubkey` and submits the form, and the task reads the
URL it finds in the configuration (`page_key_pins`).
-/

namespace EspcanBr.Http
open Base Config Autoconnect

/-- An uncompressed point. -/
structure IsPoint (key : List UInt8) : Prop where
  length : key.length = 65
  head : key.head? = some 0x04

/-- What is extracted of a certificate has the form of a point. -/
lemma extracted_point {der key : List UInt8} (found : extractP256Pubkey der = some key) : IsPoint key := by
  obtain ⟨i, at_, found⟩ := Option.bind_eq_some_iff.mp found
  obtain ⟨pre, post, first, rfl⟩ := find_eq_some.mp at_
  simp only [Option.ite_none_right_eq_some, Option.some.injEq] at found
  obtain ⟨room, rfl⟩ := found
  refine ⟨?_, ?_⟩
  · rw [List.length_take, List.length_drop]
    omega
  · rw [first.eq, List.append_assoc, List.drop_length_add_append]
    rfl

/-- A step publishes nothing, or what it finds in a certificate. -/
lemma step_published {C : Crypto} {t t' : Task} {e : Autoconnect.Event} {os : List Autoconnect.Obs}
    (step : TaskStep C t e t' os) :
    t'.shared.serverPubkey = t.shared.serverPubkey ∨
      ∃ entries, t'.shared.serverPubkey = firstKey entries := by
  have linked : ∀ (t : Task) (url : ParsedUrl), (t.link url).1.shared.serverPubkey = t.shared.serverPubkey := by
    intro t url
    rw [Task.link]
    split
    · rfl
    · rfl
  cases step with
  | locked _ att => cases att <;> exact .inl rfl
  | connectedTcp _ _ eq =>
    left
    rw [linked, eq]
  | certificate _ => exact .inr ⟨_, rfl⟩
  | rejected _ _ eq =>
    left
    rw [eq]
    split
    · rfl
    · rfl
  | opened _ => exact .inl (linked _ _)
  | tlsFail _ eq =>
    left
    rw [eq]
    split
    · rfl
    · rfl
  | _ => exact .inl rfl

/-- In every run the published key has the form of a point. -/
lemma published_point {C : Crypto} {t : Task} {tr : List Autoconnect.Obs}
    (run : (Autoconnect.machine C).Reach t tr) {key : List UInt8} (published : t.shared.serverPubkey = some key) :
    IsPoint key := by
  refine run.invariant (P := fun t _ => ∀ key, t.shared.serverPubkey = some key → IsPoint key) ?_ ?_ key published
  · intro key none
    cases none
  · intro t tr t' os e _ before _ st key published
    rcases step_published (step_sound st) with same | ⟨entries, found⟩
    · exact before key (same ▸ published)
    · rw [found, firstKey] at published
      split at published
      · exact extracted_point published
      · cases published

/-- The digits of the page are those of `hexChar`. -/
lemma utf8_hexByte (b : UInt8) : utf8 (hexByte b) = [hexChar (b >>> 4), hexChar b] := by
  have digit : ∀ n < 16, utf8 [("0123456789ABCDEF".toList.getD n '0')] = [hexChar (UInt8.ofNat n)] := by
    rw [toList_literal rfl]
    decide
  have high : UInt8.ofNat (b.toNat / 16) = b >>> 4 := by
    apply UInt8.toNat_inj.mp
    rw [UInt8.toNat_ofNat', UInt8.toNat_shiftRight, Nat.shiftRight_eq_div_pow]
    exact Nat.mod_eq_of_lt (lt_of_le_of_lt (Nat.div_le_self _ _) b.toNat_lt)
  have low : hexChar (UInt8.ofNat (b.toNat % 16)) = hexChar b := by
    have nibble : UInt8.ofNat (b.toNat % 16) = b &&& 0x0f := by
      apply UInt8.toNat_inj.mp
      rw [toNat_low_nibble, UInt8.toNat_ofNat']
      omega
    have again : b &&& 0x0f &&& 0x0f = b &&& 0x0f := by
      rw [UInt8.and_assoc]
      rfl
    rw [nibble, hexChar, hexChar, again]
  have lt := b.toNat_lt
  have first := digit (b.toNat / 16) (by omega)
  have second := digit (b.toNat % 16) (by omega)
  rw [high] at first
  rw [low] at second
  have both : hexByte b = ["0123456789ABCDEF".toList.getD (b.toNat / 16) '0'] ++
      ["0123456789ABCDEF".toList.getD (b.toNat % 16) '0'] := rfl
  rw [both, utf8_append, first, second]
  rfl

/-- The page shows a key as its digits. -/
lemma utf8_keyText {live : Live} {key : Buffer 65} (shown : live.serverPubkey = some key) (missing : String) :
    utf8 (keyText live missing) = hexPairs key.bytes := by
  rw [keyText, shown, hexPairs, utf8]
  simp only [List.flatMap_assoc]
  exact congrArg (List.flatMap · key.bytes) (funext utf8_hexByte)

/-- The text that the page shows for a key is read as the key. -/
lemma parsePubkey_keyText {live : Live} {key : Buffer 65} (shown : live.serverPubkey = some key)
    (point : IsPoint key.bytes) (missing : String) :
    parsePubkey (utf8 (keyText live missing)) = some key.bytes := by
  rw [parsePubkey, utf8_keyText shown, length_hexPairs, point.length, if_neg (by decide), hexBytes_hexPairs,
    Option.bind_some, if_pos point.head]

/-- A verifier with a pin accepts exactly the handshakes that the pin authenticates. -/
lemma pinned_iff (C : Crypto) (pin transcript : List UInt8) (entries : List CertificateEntry)
    (verify : CertificateVerify) :
    (((PinnedVerifier.new (some pin)).verifyCertificate transcript entries).verifySignature C verify).2.2 = .ok () ↔
      Authenticated C pin entries transcript verify := by
  constructor
  · exact verifySignature_pinned rfl rfl rfl
  · rintro ⟨key, scheme, sec1, der, signature⟩
    have same : ¬ (some pin).any (· ≠ pin) = true := by simp
    simp only [PinnedVerifier.new, PinnedVerifier.verifyCertificate, PinnedVerifier.verifySignature, key,
      if_neg same, checkSignature, scheme, sec1, der, signature, if_true, Bool.true_eq_false, if_false]

/-- The form of the page, in any encoding, with a URL and the box ticked. -/
structure Enabling (pairs : List (List UInt8 × List UInt8)) (url : List UInt8) : Prop where
  ne : pairs ≠ []
  keys : ∀ pair ∈ pairs, 0x26 ∉ pair.1 ∧ 0x3D ∉ pair.1
  url : (pairs.find? fun pair => pair.1 = ascii "url").map Prod.snd = some url
  enable : (pairs.find? fun pair => pair.1 = ascii "enable").isSome = true

/-- The URL that is submitted is the URL that the task reads, and the task is enabled. -/
lemma saved_url {pairs : List (List UInt8 × List UInt8)} {url body : List UInt8} (enabling : Enabling pairs url)
    (encodes : EncodesForm pairs body) (ne : url ≠ []) (le : url.length ≤ URL_MAX) (text : validUtf8 url = true)
    (io : Io) (d : Device) :
    (Http.saveAutoconnect io d body).1.autoconnect.urlStr = url ∧
      (Http.saveAutoconnect io d body).1.autoconnect.enabled = true := by
  obtain ⟨texts, form, values⟩ := encodes.exists_form enabling.ne enabling.keys
  have value : submitted texts "url" = url := by
    rw [submitted, values, enabling.url, Option.getD_some]
  have whole : url.take URL_MAX = url := List.take_of_length_le le
  have stored := (saveAutoconnect_kept form io d).text (by rw [value, whole, text])
  have ticked : (findFormValue body (ascii "enable")).isSome = true := by
    have there := congrArg Option.isSome (values (ascii "enable"))
    rw [Option.isSome_map, Option.isSome_map, enabling.enable] at there
    rw [findFormValue_form form]
    exact there
  refine ⟨?_, ?_⟩
  · rw [Kept, value, whole] at stored
    exact Option.some.inj stored.1
  · have field : field URL_MAX body (ascii "url") = url := by
      rw [field_form form, value, whole]
    have pos : 0 < url.length := List.length_pos_iff.mpr ne
    have max : URL_MAX = 256 := rfl
    have count : (UInt16.ofNat (min url.length URL_MAX)).toNat = url.length := by
      rw [UInt16.toNat_ofNat']
      omega
    simp only [Http.saveAutoconnect, ticked, field, text, if_true, AutoConnectConfig.enabled, AutoConnectConfig.set]
    refine decide_eq_true ⟨by decide, ?_⟩
    apply UInt16.lt_iff_toNat_lt.mpr
    rw [count]
    exact pos

/-- The way of the key. Whatever the server sends, every key that the task publishes, whether or not the handshake
was completed, has the form of a point. The text that the page shows for such a key, put into any TLS URL as its
`pubkey` and submitted in any encoding of the form, makes the task read that URL, if it fits the configuration;
the next round of the task, in whatever state, goes on with the key as its pin; and with that pin a handshake is
accepted exactly if the key found in the server's first certificate is that one and the signature is valid under
it. -/
theorem page_key_pins (C : Crypto) :
    (∀ t tr, (Autoconnect.machine C).Reach t tr → ∀ key, t.shared.serverPubkey = some key → IsPoint key) ∧
    ∀ key : Buffer 65, IsPoint key.bytes →
      ∀ (live : Live) (missing : String), live.serverPubkey = some key →
      ∀ u : UrlText, u.tls = true → u.param "pubkey" = some (utf8 (keyText live missing)) →
        u.text.length ≤ URL_MAX → validUtf8 u.text = true →
      ∀ io d pairs body, Enabling pairs u.text → EncodesForm pairs body →
        (∀ s : Task, (s.attempt (Http.saveAutoconnect io d body).1.autoconnect true).1.pc =
              .resolving u.parsed (some key.bytes) ∨
            ∃ ip, (s.attempt (Http.saveAutoconnect io d body).1.autoconnect true).1.pc =
              .connecting u.parsed (some key.bytes) ip) ∧
        ∀ transcript entries verify,
          (((PinnedVerifier.new (some key.bytes)).verifyCertificate transcript entries).verifySignature C
              verify).2.2 = .ok () ↔ Authenticated C key.bytes entries transcript verify := by
  refine ⟨fun t tr run key published => published_point run published, ?_⟩
  intro key point live missing shown u tls pubkey le text io d pairs body enabling encodes
  refine ⟨fun s => ?_, fun transcript entries verify => pinned_iff C key.bytes transcript entries verify⟩
  have ne : u.text ≠ [] := by
    intro none
    have parsed := parseUrl_text u
    rw [none] at parsed
    cases parsed
  obtain ⟨read, enabled⟩ := saved_url enabling encodes ne le text io d
  have usable : Task.usablePin u.parsed = some (some key.bytes) := by
    have hex : u.parsed.pubkey = some (utf8 (keyText live missing)) := pubkey
    have secure : u.parsed.tls = true := tls
    rw [Task.usablePin, hex]
    simp only [parsePubkey_keyText shown point missing, secure, if_true]
  have parsed : parseUrl (Http.saveAutoconnect io d body).1.autoconnect.urlStr = some u.parsed := by
    rw [read, parseUrl_text]
  have att := attempt_sound s (Http.saveAutoconnect io d body).1.autoconnect true
  generalize s.attempt (Http.saveAutoconnect io d body).1.autoconnect true = next at att ⊢
  obtain ⟨s', os⟩ := next
  cases att with
  | disabled no =>
    rw [enabled] at no
    cases no
  | noWifi _ no => cases no
  | badConfig _ _ unusable =>
    rw [unusable _ parsed] at usable
    cases usable
  | query _ _ found pinned =>
    rw [parsed] at found
    cases found
    rw [usable] at pinned
    cases pinned
    exact .inl rfl
  | dial _ _ found pinned =>
    rw [parsed] at found
    cases found
    rw [usable] at pinned
    cases pinned
    exact .inr ⟨_, rfl⟩

/-- A text without special characters stands for itself. -/
lemma encodes_plain {text : List UInt8} (plain : text.all (fun b => b ≠ 0x25 ∧ b ≠ 0x2B ∧ b ≠ 0x26) = true) :
    Encodes text text := by
  have special : ascii "%+&" = [0x25, 0x2B, 0x26] := by decide
  induction text with
  | nil => exact .nil
  | cons b text ih =>
    rw [List.all_cons, Bool.and_eq_true, decide_eq_true_eq] at plain
    obtain ⟨no, plain⟩ := plain
    refine .byte ?_ (ih plain)
    rw [special]
    simp [no]

/-- The URL of the sample configuration. -/
def sampleUrl : List UInt8 := ascii "tls://10.0.0.1:4433/?pubkey=" ++ hexPairs samplePoint

/-- A device that has found the sample's key. -/
def sampleLive : Live := { Live.new with serverPubkey := some ⟨samplePoint, by decide⟩ }

/-- The form with the URL, and the text of it. -/
def samplePairs : List (List UInt8 × List UInt8) := [(ascii "url", sampleUrl), (ascii "enable", ascii "1")]

def sampleForm : List UInt8 := ascii "url=" ++ sampleUrl ++ ascii "&enable=1"

theorem page_key_pins_at :
    ∃ p, ((Autoconnect.machine sampleCrypto).init.attempt
          (Http.saveAutoconnect ⟨.written, fun _ => 0⟩ .new sampleForm).1.autoconnect true).1.pc =
        .resolving p (some samplePoint) ∨
      ∃ ip, ((Autoconnect.machine sampleCrypto).init.attempt
          (Http.saveAutoconnect ⟨.written, fun _ => 0⟩ .new sampleForm).1.autoconnect true).1.pc =
        .connecting p (some samplePoint) ip := by
  have read : parseUrl sampleUrl = some ⟨true, ascii "10.0.0.1", 4433, some (hexPairs samplePoint), none⟩ := by
    decide +kernel
  obtain ⟨u, eq⟩ := exists_text read
  have parsed := parseUrl_text u
  rw [← eq, read, Option.some.injEq] at parsed
  have pubkey : u.param "pubkey" = some (utf8 (keyText sampleLive "(none yet)")) := by
    rw [utf8_keyText rfl]
    exact (congrArg ParsedUrl.pubkey parsed).symm
  have enabling : Enabling samplePairs sampleUrl :=
    ⟨List.cons_ne_nil _ _, by decide +kernel, rfl, by decide +kernel⟩
  have encodes : EncodesForm samplePairs sampleForm := by
    refine ⟨samplePairs, .cons ⟨rfl, encodes_plain ?_⟩ (.cons ⟨rfl, encodes_plain ?_⟩ .nil), ?_⟩
    · decide +kernel
    · decide +kernel
    · decide +kernel
  have fits : sampleUrl.length ≤ URL_MAX := by decide +kernel
  have text : validUtf8 sampleUrl = true := by decide +kernel
  rw [eq] at enabling fits text
  have pinned := (page_key_pins sampleCrypto).2 ⟨samplePoint, by decide⟩ ⟨by decide, rfl⟩ sampleLive "(none yet)"
    rfl u (congrArg ParsedUrl.tls parsed).symm pubkey fits text ⟨.written, fun _ => 0⟩ .new samplePairs sampleForm
    enabling encodes
  exact ⟨u.parsed, pinned.1 _⟩

end EspcanBr.Http
