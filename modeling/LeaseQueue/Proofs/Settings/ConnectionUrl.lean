/-
The parts of a connection URL can be read back.

* `UrlParts`, `UrlParts.read?`: the parts of a URL, cut at its marks;
* `UrlParts.cutFirst_append`, `UrlParts.cutLast_append`: a mark is found where it was put;
* `Text.readDigits_eq`, `StorageSettings.readPort_toString`: a port is read as it is written;
* `StorageSettings.url_determines`: the parts of the URL of some settings are these settings, which
  are therefore the only ones with this URL;
* `StorageSettings.marked_settings_read`: settings in which every mark stands in the credentials.
-/
import LeaseQueue.Proofs.Text.Percent
import LeaseQueue.Settings.Storage

namespace LeaseQueue

/-! ### Reading a URL -/

/-- What a connection URL says. -/
structure UrlParts where
  host : String
  port : Nat
  user : String
  password : String
  database : String
  deriving DecidableEq

namespace UrlParts

/-- What stands in front of the first mark, and what behind it. -/
def cutFirst (mark : Char) : List Char → Option (List Char × List Char)
  | [] => none
  | c :: rest =>
    if c = mark then some ([], rest)
    else (cutFirst mark rest).map fun parts => (c :: parts.1, parts.2)

/-- What stands in front of the last mark, and what behind it. -/
def cutLast (mark : Char) (s : List Char) : Option (List Char × List Char) :=
  (cutFirst mark s.reverse).map fun parts => (parts.2.reverse, parts.1.reverse)

/-- What stands behind the scheme. -/
def behindScheme : List Char → Option (List Char)
  | [] => none
  | ':' :: '/' :: '/' :: rest => some rest
  | _ :: rest => behindScheme rest

/-- Reads a URL: the credentials stand in front of the last `@`, with a colon between user and
password; behind it come the address, with a colon between host and port, and the path, whose
database ends at the query. User, password and database are in percent-encoding. -/
def read? (url : String) : Option UrlParts := do
  let (credentials, place) ← behindScheme url.toList >>= cutLast '@'
  let (user, password) ← cutFirst ':' credentials
  let (address, path) ← cutFirst '/' place
  let (host, port) ← cutFirst ':' address
  let (database, _) ← cutFirst '?' path
  return {
    host := String.ofList host
    port := ← (StorageSettings.readPort (String.ofList port)).toOption
    user := ← Text.Percent.decode (String.ofList user)
    password := ← Text.Percent.decode (String.ofList password)
    database := ← Text.Percent.decode (String.ofList database) }

/-- A mark that does not stand in front of a place is found there first. -/
lemma cutFirst_append {mark : Char} {front : List Char} (h : mark ∉ front) (back : List Char) :
    cutFirst mark (front ++ mark :: back) = some (front, back) := by
  induction front with
  | nil => simp [cutFirst]
  | cons c front ih =>
      obtain ⟨hc, hfront⟩ := not_or.mp (mt List.mem_cons.mpr h)
      rw [List.cons_append, cutFirst, if_neg (Ne.symm hc), ih hfront]
      rfl

/-- A mark that does not stand behind a place is found there last. -/
lemma cutLast_append {mark : Char} {back : List Char} (front : List Char) (h : mark ∉ back) :
    cutLast mark (front ++ mark :: back) = some (front, back) := by
  have hreverse : (front ++ mark :: back).reverse = back.reverse ++ mark :: front.reverse := by
    simp
  rw [cutLast, hreverse, cutFirst_append (by simpa using h)]
  simp

end UrlParts

/-! ### Ports -/

/-- Digits are read as their value, if it is not too large. -/
lemma Text.readDigits_eq {bound : Nat} (overflow : IntegerError) {digits : List Char}
    (hdigits : ∀ c ∈ digits, c.isDigit = true) {start : Nat}
    (h : Nat.ofDigitChars 10 digits start ≤ bound) :
    readDigits bound overflow start digits = .ok (Nat.ofDigitChars 10 digits start) := by
  induction digits generalizing start with
  | nil => rfl
  | cons c digits ih =>
      obtain ⟨hc, hrest⟩ := List.forall_mem_cons.mp hdigits
      rw [Nat.ofDigitChars_cons] at h ⊢
      -- the value grows with every digit, so no part of it is too large either
      have hnext : 10 * start + (c.toNat - 48) ≤ bound := by
        refine le_trans ?_ h
        rw [Nat.ofDigitChars_eq_ofDigitChars_zero]
        have hpos : 1 ≤ 10 ^ digits.length := Nat.one_le_pow _ _ (by decide)
        calc 10 * start + (c.toNat - 48)
            ≤ 10 ^ digits.length * (10 * start + (c.toNat - 48)) := Nat.le_mul_of_pos_left _ hpos
          _ ≤ _ := Nat.le_add_right _ _
      rw [readDigits, if_pos hc]
      exact (if_neg (Nat.not_lt.mpr hnext)).trans (ih hrest h)

namespace StorageSettings

/-- A port is read as it is written. -/
lemma readPort_toString {port : Nat} (h : port ≤ Text.maxNat16) :
    readPort (String.ofList (Nat.toDigits 10 port)) = .ok port := by
  have hdigits : ∀ c ∈ Nat.toDigits 10 port, c.isDigit = true := fun c hc =>
    Nat.isDigit_of_mem_toDigits (by decide) (by decide) hc
  have hread : Text.readDigits Text.maxNat16 .tooLarge 0 (Nat.toDigits 10 port) = .ok port := by
    rw [Text.readDigits_eq _ hdigits] <;> rw [Nat.ofDigitChars_ten_toDigits]
    exact h
  rw [readPort, String.toList_ofList, Text.readNatural]
  · exact hread
  · exact Nat.toDigits_ne_nil
  · rintro digits heq
    have hplus : '+'.isDigit = true := hdigits '+' (heq ▸ List.mem_cons_self)
    exact absurd hplus (by decide)

/-! ### The URL of settings -/

/-- What the settings say about the connection. -/
def parts (settings : StorageSettings) : UrlParts :=
  ⟨settings.host, settings.port, settings.user, settings.password, settings.database⟩

/-- The host holds none of the marks behind which it could end, and the port has 16 bits. -/
structure Addressable (settings : StorageSettings) : Prop where
  host : ∀ mark ∈ ['@', '/', ':'], mark ∉ settings.host.toList
  port : settings.port ≤ Text.maxNat16

/-- What stands behind the last `@` of the URL. -/
def placeText (settings : StorageSettings) : List Char :=
  settings.host.toList ++ ':' :: Nat.toDigits 10 settings.port ++ '/' ::
    ((Text.Percent.encode settings.database).toList ++ '?' :: "sslmode=disable".toList)

/-- The URL, with each mark at its place. -/
lemma toList_url (settings : StorageSettings) :
    settings.url.toList =
      "postgres".toList ++ ':' :: '/' :: '/' ::
        ((Text.Percent.encode settings.user).toList ++ ':' ::
          (Text.Percent.encode settings.password).toList ++ '@' :: settings.placeText) := by
  unfold url placeText
  simp only [String.toList_append, Nat.toString_eq_ofList_toDigits, String.toList_ofList]
  simp

/-- A mark is no digit, so it stands in no port. -/
lemma not_mem_port {mark : Char} (h : mark.isDigit = false) (port : Nat) :
    mark ∉ Nat.toDigits 10 port := by
  intro hmem
  rw [Nat.isDigit_of_mem_toDigits (by decide) (by decide) hmem] at h
  cases h

/-- Only in front of it there can be another `@`. -/
lemma not_mem_placeText {settings : StorageSettings} (h : settings.Addressable) :
    '@' ∉ settings.placeText := by
  have hhost := h.host '@' (by decide)
  have hport : '@' ∉ Nat.toDigits 10 settings.port := not_mem_port (by decide) _
  have hdatabase : '@' ∉ (Text.Percent.encode settings.database).toList :=
    Text.Percent.not_mem_encode (by decide) _
  simp only [placeText, List.mem_append, List.mem_cons, not_or]
  exact ⟨⟨hhost, by decide, hport⟩, by decide, hdatabase, by decide, by decide⟩

/-- The URL of settings is read as these settings. -/
lemma read?_url {settings : StorageSettings} (h : settings.Addressable) :
    UrlParts.read? settings.url = some settings.parts := by
  have hbehind : UrlParts.behindScheme settings.url.toList = some
      ((Text.Percent.encode settings.user).toList ++ ':' ::
        (Text.Percent.encode settings.password).toList ++ '@' :: settings.placeText) := by
    rw [toList_url]
    rfl
  have hcredentials := UrlParts.cutLast_append
    ((Text.Percent.encode settings.user).toList ++ ':' ::
      (Text.Percent.encode settings.password).toList) (not_mem_placeText h)
  have huser : ':' ∉ (Text.Percent.encode settings.user).toList :=
    Text.Percent.not_mem_encode (by decide) _
  have haddress : UrlParts.cutFirst '/' settings.placeText =
      some (settings.host.toList ++ ':' :: Nat.toDigits 10 settings.port,
        (Text.Percent.encode settings.database).toList ++ '?' :: "sslmode=disable".toList) := by
    refine UrlParts.cutFirst_append ?_ _
    simp only [List.mem_append, List.mem_cons, not_or]
    exact ⟨h.host '/' (by decide), by decide, not_mem_port (by decide) settings.port⟩
  have hhost := UrlParts.cutFirst_append (h.host ':' (by decide)) (Nat.toDigits 10 settings.port)
  have hdatabase : '?' ∉ (Text.Percent.encode settings.database).toList :=
    Text.Percent.not_mem_encode (by decide) _
  have hport := readPort_toString h.port
  simp only [UrlParts.read?, hbehind, hcredentials, UrlParts.cutFirst_append huser, haddress,
    hhost, UrlParts.cutFirst_append hdatabase, hport,
    Except.toOption, String.ofList_toList, Text.Percent.decode_encode, bind, pure, Option.bind_some]
  rfl

/-- The URL of settings is read as these settings: no mark in the user, the password or the database
shows. So two settings of one URL agree in host, port, user, password and database. -/
theorem url_determines {settings : StorageSettings} (h : settings.Addressable) :
    UrlParts.read? settings.url = some settings.parts ∧
      ∀ other : StorageSettings, other.Addressable → other.url = settings.url →
        other.parts = settings.parts := by
  refine ⟨read?_url h, fun other hother hurl => ?_⟩
  have hread := read?_url hother
  rw [hurl, read?_url h] at hread
  exact (Option.some.inj hread).symm

/-- Credentials that hold every mark, a database without a name, and text beyond ASCII. -/
theorem marked_settings_read :
    let settings : StorageSettings := ⟨"db.internal", 6543, "a@b:c/d?e%", "://@é😀", "", 10⟩
    settings.Addressable ∧
      settings.url = "postgres://a%40b%3Ac%2Fd%3Fe%25:%3A%2F%2F%40%C3%A9%F0%9F%98%80@" ++
        "db.internal:6543/?sslmode=disable" ∧
      UrlParts.read? settings.url = some settings.parts ∧
      ∀ other : StorageSettings, other.Addressable → other.url = settings.url →
        other.parts = settings.parts := by
  intro settings
  have h : settings.Addressable := ⟨by simp [settings], by decide⟩
  exact ⟨h, by decide +kernel, url_determines h⟩

end StorageSettings
end LeaseQueue
