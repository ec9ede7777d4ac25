import Rackio.Lib.Base64Text
import Rackio.Remote.DirectAddresses
import Rackio.Remote.Hostile
import Rackio.Runtime.NodeId

/-!
# The text of a pairing bundle

`PairingBundle::encode` and `PairingBundle::decode` of `rackio-iroh/src/pairing.rs`, and the second
reader of the same text: `bundle_expiry` of the desktop, which parses the document as a `Value` and
looks for one member of it. The engine of the text and the two parsers are code of other crates.

A bundle comes back from its text, with the white space an operator may paste around it, and both
readers find the same expiry (`bundle_round_trips`). The first reader accepts more than the second
one, an array of the fields and members that it skips unseen; on what it accepts the second one
finds the same expiry or none (`readers_agree`).
-/

namespace Rackio

open NodeRuntime (zeroSecret)

/-- What is asked of the engine: bytes come back from their text, no other text gives them, and the
text has no white space. -/
structure Base64.Lawful (b64 : Base64) : Prop where
  decode_encode : ∀ bytes, b64.decode (b64.encode bytes) = some bytes
  encode_of_decode : ∀ text bytes, b64.decode text = some bytes → b64.encode bytes = text
  noSpace : ∀ bytes, ∀ c ∈ (b64.encode bytes).toList, isWhitespace c = false

/-- The only text of some bytes is the one they are encoded as. -/
theorem Base64.Lawful.decode_eq_some_iff {b64 : Base64} (h : b64.Lawful) {text : String}
    {bytes : List UInt8} : b64.decode text = some bytes ↔ text = b64.encode bytes := by
  constructor
  · exact fun hdecode => (h.encode_of_decode text bytes hdecode).symm
  · rintro rfl
    exact h.decode_encode bytes

/-- The URL-safe alphabet without padding. -/
def urlSafeNoPad : Base64 := ⟨Base64Text.urlSafe.encode, Base64Text.urlSafe.decode⟩

theorem lawful_urlSafeNoPad : urlSafeNoPad.Lawful where
  decode_encode := Base64Text.urlSafe.decode_encode
  encode_of_decode _ _ := Base64Text.urlSafe.encode_of_decode
  noSpace bytes c hc := by
    have hsymbols : Base64Text.urlSafe.symbols.all (fun c => !isWhitespace c) = true := by decide
    obtain ⟨d, -, rfl⟩ := List.mem_map.1 (String.toList_ofList ▸ hc)
    exact Bool.not_eq_true' _ ▸ List.all_eq_true.1 hsymbols _ (List.get_mem _ _)

/-- The source's `str::strip_prefix`. -/
def stripPrefix (pre s : String) : Option String :=
  (pre.toList.isPrefixOf? s.toList).map String.ofList

/-- What is left of a text without its prefix. -/
theorem stripPrefix_eq_some_iff {pre s rest : String} :
    stripPrefix pre s = some rest ↔ s = pre ++ rest := by
  have hlist : ∀ p l r : List Char, p.isPrefixOf? l = some r ↔ l = p ++ r := by
    intro p
    induction p with
    | nil =>
      intro l r
      rw [List.isPrefixOf?, List.nil_append, Option.some.injEq]
    | cons c p ih =>
      intro l r
      cases l with
      | nil => exact iff_of_false nofun nofun
      | cons d l =>
        rw [List.isPrefixOf?, List.cons_append, List.cons.injEq, ← ih]
        by_cases hcd : c = d
        · simp [hcd]
        · simp [hcd, Ne.symm hcd]
  rw [stripPrefix, Option.map_eq_some_iff, ← String.toList_inj, String.toList_append]
  constructor
  · rintro ⟨l, hl, rfl⟩
    rw [String.toList_ofList]
    exact (hlist _ _ _).1 hl
  · intro h
    exact ⟨rest.toList, (hlist _ _ _).2 h, String.ofList_toList⟩

/-- White space around a text is trimmed. -/
theorem trim_pad {s before after : String} (hbefore : ∀ c ∈ before.toList, isWhitespace c = true)
    (hafter : ∀ c ∈ after.toList, isWhitespace c = true)
    (hs : ∀ c ∈ s.toList, isWhitespace c = false) (hne : s ≠ "") :
    trim (before ++ s ++ after) = s := by
  have hstart : ∀ l : List Char, (∀ c ∈ l, isWhitespace c = true) →
      ∀ c rest, isWhitespace c = false →
        (l ++ c :: rest).dropWhile isWhitespace = c :: rest := by
    intro l hl c rest hc
    rw [List.dropWhile_append_of_pos hl, List.dropWhile_cons_of_neg (by rw [hc]; nofun)]
  obtain ⟨first, rest, hfirst⟩ : ∃ c rest, s.toList = c :: rest := by
    cases h : s.toList with
    | nil => exact absurd (String.toList_inj.1 h) hne
    | cons c rest => exact ⟨c, rest, rfl⟩
  obtain ⟨last, init, hlast⟩ : ∃ c init, s.toList.reverse = c :: init := by
    cases h : s.toList.reverse with
    | nil =>
      rw [List.reverse_eq_nil_iff, hfirst] at h
      cases h
    | cons c init => exact ⟨c, init, rfl⟩
  have hlastSpace : isWhitespace last = false :=
    hs last (List.mem_reverse.1 (hlast ▸ List.mem_cons_self))
  unfold trim
  rw [String.toList_append, String.toList_append, List.append_assoc, hfirst, List.cons_append,
    hstart _ hbefore first _ (hs first (hfirst ▸ List.mem_cons_self)), ← List.cons_append, ← hfirst,
    List.reverse_append, hlast,
    hstart _ (fun c hc => hafter c (List.mem_reverse.1 hc)) last _ hlastSpace, ← hlast,
    List.reverse_reverse, String.ofList_toList]

/-! ## Documents -/

/-- How `serde_json` prints a document as bytes, and reads bytes as a `Value` and as a
`PairingBundle`. The second reader skips the members it does not know, whatever they hold. -/
structure JsonBytes (φ : Type) where
  print : Json φ → List UInt8
  value : List UInt8 → Except String (Json φ)
  bundle : List UInt8 → Except String PairingBundle

/-- A member of an object that is read without a type; of two with one name the last one counts. -/
def lastMember {φ : Type} (name : String) : Json φ → Option (Json φ)
  | .obj members => members.reverse.lookup name
  | _ => none

/-- The source's `Value::as_i64`. -/
def asI64 {φ : Type} : Json φ → Option Int
  | .int n => if i64Min ≤ n ∧ n ≤ i64Max then some n else none
  | _ => none

namespace JsonFormats

variable {φ : Type} (f : JsonFormats φ)

/-- A `u8`. -/
def u8 : Serde φ UInt8 :=
  (Serde.int 0 (2 ^ 8 - 1)).via (fun x => x.toNat) (fun n => .ok (.ofNat n.toNat)) (fun _ => True)
    fun x _ => by
      have hlt := x.toNat_lt
      refine ⟨⟨by omega, by omega⟩, ?_⟩
      simp

/-- A `PairingBundle`, as it is written. -/
def pairingBundle : Serde φ PairingBundle :=
  Serde.record
    (.field "format_version" u8 <| .field "node_id" f.uuid <| .field "endpoint_id" .str <|
      .field "direct_addresses" f.socketAddr.list <| .field "relay_urls" Serde.str.list <|
      .field "one_time_secret" .str <| .field "expires_at_ms" i64 .nil)
    (by simp)
    (fun b => (b.formatVersion, b.nodeId, b.endpointId, b.directAddresses, b.relayUrls,
      b.oneTimeSecret, b.expiresAtMs, ()))
    (fun (formatVersion, nodeId, endpointId, directAddresses, relayUrls, oneTimeSecret, expiresAtMs,
        ()) =>
      ⟨formatVersion, nodeId, endpointId, directAddresses, relayUrls, oneTimeSecret, expiresAtMs⟩)
    fun _ => rfl

/-- A `PairingBundle`, as it is read: a derived deserializer also takes an array of the fields. -/
def readBundle : Json φ → Except String PairingBundle
  | .arr [formatVersion, nodeId, endpointId, directAddresses, relayUrls, oneTimeSecret,
      expiresAtMs] => do
    return {
      formatVersion := ← u8.de formatVersion
      nodeId := ← f.uuid.de nodeId
      endpointId := ← Serde.str.de endpointId
      directAddresses := ← f.socketAddr.list.de directAddresses
      relayUrls := ← Serde.str.list.de relayUrls
      oneTimeSecret := ← Serde.str.de oneTimeSecret
      expiresAtMs := ← i64.de expiresAtMs }
  | doc => f.pairingBundle.de doc

end JsonFormats

/-- On bytes that are a `Value`, a `PairingBundle` is read of that document. -/
def JsonBytes.Reads {φ : Type} (json : JsonBytes φ) (f : JsonFormats φ) : Prop :=
  ∀ bytes doc, json.value bytes = .ok doc →
    ∀ bundle, json.bundle bytes = .ok bundle ↔ f.readBundle doc = .ok bundle

/-! ## The text -/

/-- What every text of a bundle starts with. -/
def bundlePrefix : String := "rackio-pair:"

section
variable {φ : Type} (b64 : Base64) (json : JsonBytes φ)

/-- The source's `PairingBundle::encode`. -/
def PairingBundle.encode (f : JsonFormats φ) (bundle : PairingBundle) : String :=
  bundlePrefix ++ b64.encode (json.print (f.pairingBundle.ser bundle))

/-- The source's `PairingBundle::decode`. -/
def PairingBundle.decode (encoded : String) : Except PairingError PairingBundle :=
  match stripPrefix bundlePrefix encoded with
  | none => .error .invalidBundle
  | some payload =>
    match b64.decode payload with
    | none => .error .invalidBundle
    | some bytes => do
      let bundle ← (json.bundle bytes).mapError .json
      if bundle.formatVersion ≠ 1 then .error .invalidBundle
      return bundle

/-- The source's `bundle_expiry`. -/
def bundleExpiry (bundle : String) : Except String Int :=
  match stripPrefix bundlePrefix bundle with
  | none => .error "daemon returned a bundle without a pairing prefix"
  | some payload =>
    match b64.decode payload with
    | none => .error "daemon pairing bundle is not valid base64"
    | some bytes =>
      match ((json.value bytes).toOption.bind (lastMember "expires_at_ms")).bind asI64 with
      | none => .error "daemon pairing bundle did not declare an expiry"
      | some expiresAtMs => .ok expiresAtMs

end

/-! ## Writing and reading -/

section
variable {φ : Type} {f : JsonFormats φ} {b64 : Base64} {json : JsonBytes φ} {bundle : PairingBundle}

/-- How addresses are printed and parsed: the text of one leaves out its flow information, and an
address without one comes back. -/
structure JsonFormats.PrintsAddresses (f : JsonFormats φ) (addresses : List SocketAddr) : Prop where
  dropsFlow : ∀ a ∈ addresses, f.addressText a = f.addressText a.reread
  parses : ∀ a ∈ addresses, f.Textual a.reread

/-- The text holds what the reread bundle is written as. -/
theorem ser_reread (hprints : f.PrintsAddresses bundle.directAddresses) :
    f.pairingBundle.ser bundle = f.pairingBundle.ser bundle.reread := by
  have haddresses : f.socketAddr.list.ser bundle.directAddresses =
      f.socketAddr.list.ser bundle.reread.directAddresses := by
    show Json.arr (bundle.directAddresses.map f.socketAddr.ser) =
      Json.arr ((bundle.directAddresses.map SocketAddr.reread).map f.socketAddr.ser)
    rw [List.map_map]
    exact congrArg Json.arr
      (List.map_congr_left fun a ha => congrArg Json.str (hprints.dropsFlow a ha))
  show Json.obj [_, _, _, ("direct_addresses", f.socketAddr.list.ser bundle.directAddresses), _, _,
    _] = _
  rw [haddresses]
  rfl

/-- A bundle that was read again is read as it is written. -/
theorem storable_reread (hprints : f.PrintsAddresses bundle.directAddresses)
    (hexpiry : FitsI64 bundle.expiresAtMs) :
    f.pairingBundle.Storable bundle.reread := by
  refine ⟨trivial, trivial, trivial, fun a ha => ?_, fun _ _ => trivial, trivial, hexpiry, trivial⟩
  obtain ⟨a, hmem, rfl⟩ := List.mem_map.1 ha
  exact hprints.parses a hmem

/-- An object is read as it is written. -/
theorem readBundle_obj (members : List (String × Json φ)) :
    f.readBundle (.obj members) = f.pairingBundle.de (.obj members) := rfl

/-- No white space is in the text of a bundle. -/
theorem encode_whitespace (hb64 : b64.Lawful) (bundle : PairingBundle) :
    ∀ c ∈ (bundle.encode b64 json f).toList, isWhitespace c = false := by
  have hstart : bundlePrefix.toList.all (fun c => !isWhitespace c) = true := by decide
  intro c hc
  rw [PairingBundle.encode, String.toList_append, List.mem_append] at hc
  rcases hc with hc | hc
  · exact Bool.not_eq_true' _ ▸ List.all_eq_true.1 hstart c hc
  · exact hb64.noSpace _ c hc

/-- The prefix of a text of a bundle is stripped. -/
theorem stripPrefix_encode (bundle : PairingBundle) :
    stripPrefix bundlePrefix (bundle.encode b64 json f) =
      some (b64.encode (json.print (f.pairingBundle.ser bundle))) :=
  stripPrefix_eq_some_iff.2 rfl

/-- The text of a bundle is accepted. -/
theorem decode_text (hb64 : b64.Lawful) (hreads : json.Reads f)
    (hprints : f.PrintsAddresses bundle.directAddresses)
    (hvalue : json.value (json.print (f.pairingBundle.ser bundle)) =
      .ok (f.pairingBundle.ser bundle))
    (hversion : bundle.formatVersion = 1) (hexpiry : FitsI64 bundle.expiresAtMs) :
    PairingBundle.decode b64 json (bundle.encode b64 json f) = .ok bundle.reread := by
  have hread : f.readBundle (f.pairingBundle.ser bundle) = .ok bundle.reread := by
    rw [ser_reread hprints]
    exact f.pairingBundle.de_ser _ (storable_reread hprints hexpiry)
  have hbundle := (hreads _ _ hvalue _).2 hread
  have hsame : bundle.reread.formatVersion = 1 := hversion
  rw [PairingBundle.decode]
  simp only [stripPrefix_encode, hb64.decode_encode, hbundle]
  show (if bundle.reread.formatVersion ≠ 1 then _ else _) = _
  rw [if_neg (not_not_intro hsame)]
  rfl

/-- White space around the text of a bundle is trimmed. -/
theorem trim_encode (hb64 : b64.Lawful) {before after : String}
    (hbefore : ∀ c ∈ before.toList, isWhitespace c = true)
    (hafter : ∀ c ∈ after.toList, isWhitespace c = true) :
    trim (before ++ bundle.encode b64 json f ++ after) = bundle.encode b64 json f := by
  refine trim_pad hbefore hafter (encode_whitespace hb64 bundle) fun hempty => ?_
  have hchars := congrArg (fun s : String => s.toList.head?) hempty
  rw [PairingBundle.encode, String.toList_append] at hchars
  cases hchars

/-- Every bundle of the current format comes back from its text, with any white space around it, but
for the flow information of its addresses; the desktop reads its expiry from the same text. -/
theorem bundle_round_trips (hb64 : b64.Lawful) (hreads : json.Reads f)
    (hprints : f.PrintsAddresses bundle.directAddresses)
    (hvalue : json.value (json.print (f.pairingBundle.ser bundle)) =
      .ok (f.pairingBundle.ser bundle))
    (hversion : bundle.formatVersion = 1) (hexpiry : FitsI64 bundle.expiresAtMs)
    {before after : String} (hbefore : ∀ c ∈ before.toList, isWhitespace c = true)
    (hafter : ∀ c ∈ after.toList, isWhitespace c = true) :
    PairingBundle.decode b64 json (trim (before ++ bundle.encode b64 json f ++ after)) =
        .ok bundle.reread ∧
      bundleExpiry b64 json (bundle.encode b64 json f) = .ok bundle.expiresAtMs := by
  refine ⟨?_, ?_⟩
  · rw [trim_encode hb64 hbefore hafter]
    exact decode_text hb64 hreads hprints hvalue hversion hexpiry
  · have hmember : (lastMember "expires_at_ms" (f.pairingBundle.ser bundle)).bind asI64 =
        some bundle.expiresAtMs := if_pos hexpiry
    rw [bundleExpiry]
    simp only [stripPrefix_encode, hb64.decode_encode, hvalue, Except.toOption, Option.bind_some,
      hmember]

/-- A bundle of a machine that listens on one address. -/
def loopbackBundle : PairingBundle where
  formatVersion := 1
  nodeId := RemoteFleet.machineBundle.nodeId
  endpointId := RemoteFleet.machineBundle.endpointId
  directAddresses := [⟨.v4 0x7f000001, 4433, 0, 0⟩]
  relayUrls := []
  oneTimeSecret := urlSafeNoPad.encode zeroSecret.bytes
  expiresAtMs := pairingWindowMs

/-- The document it is written as. -/
def loopbackDocument : Json F32 := RemoteFleet.plainFormats.pairingBundle.ser loopbackBundle

/-- The bytes of this document. -/
def loopbackBytes : List UInt8 :=
  ("\x7b\"format_version\":1,\"node_id\":\"" ++ loopbackBundle.nodeId.toString ++
    "\",\"endpoint_id\":\"" ++ loopbackBundle.endpointId ++
    "\",\"direct_addresses\":[\"127.0.0.1:4433\"],\"relay_urls\":[],\"one_time_secret\":\"" ++
    loopbackBundle.oneTimeSecret ++
    "\",\"expires_at_ms\":300000\x7d").toList.map fun c => UInt8.ofNat c.toNat

/-- The same bytes with one more member, which is no `Value`. -/
def overflowBytes : List UInt8 :=
  "\x7b\"x\":1e999,".toList.map (fun c => UInt8.ofNat c.toNat) ++ loopbackBytes.drop 1

/-- How this document is printed, and these bytes are read. -/
def loopbackJson : JsonBytes F32 where
  print _ := loopbackBytes
  value bytes :=
    if bytes = loopbackBytes then .ok loopbackDocument
    else if bytes = overflowBytes then .error "number out of range"
    else .error "other document"
  bundle bytes :=
    if bytes = loopbackBytes ∨ bytes = overflowBytes then .ok loopbackBundle
    else .error "other document"

/-- The address of the bundle is printed and parsed. -/
theorem loopback_prints :
    RemoteFleet.plainFormats.PrintsAddresses loopbackBundle.directAddresses := by
  refine ⟨fun a ha => ?_, fun a ha => ?_⟩
  · rw [List.mem_singleton.1 ha]
    rfl
  · rw [List.mem_singleton.1 ha]
    rfl

/-- Its document is printed and parsed. -/
theorem loopback_parses :
    loopbackJson.value (loopbackJson.print (RemoteFleet.plainFormats.pairingBundle.ser
      loopbackBundle)) = .ok (RemoteFleet.plainFormats.pairingBundle.ser loopbackBundle) := by
  simp only [loopbackJson, if_true, loopbackDocument]

/-- Its format is the current one, and its expiry a number of milliseconds. -/
theorem loopback_version : loopbackBundle.formatVersion = 1 := by
  simp only [loopbackBundle]

theorem loopback_expiry : FitsI64 loopbackBundle.expiresAtMs := by
  simp only [loopbackBundle, pairingWindowMs]
  decide

/-- It is read as the bundle. -/
theorem loopback_reads : loopbackJson.Reads RemoteFleet.plainFormats := by
  have hread : RemoteFleet.plainFormats.readBundle loopbackDocument = .ok loopbackBundle := by
    have hreread : loopbackBundle.reread = loopbackBundle := by
      simp [PairingBundle.reread, loopbackBundle, SocketAddr.reread]
    have hde := RemoteFleet.plainFormats.pairingBundle.de_ser _
      (storable_reread loopback_prints loopback_expiry)
    rw [hreread] at hde
    exact hde
  intro bytes doc hvalue bundle
  simp only [loopbackJson] at hvalue ⊢
  split at hvalue
  · next heq =>
    cases hvalue
    rw [if_pos (.inl heq), hread]
  · split at hvalue <;> cases hvalue

theorem bundle_round_trips_loopback :
    PairingBundle.decode urlSafeNoPad loopbackJson (trim (" " ++
        loopbackBundle.encode urlSafeNoPad loopbackJson RemoteFleet.plainFormats ++ "\n")) =
        .ok loopbackBundle.reread ∧
      bundleExpiry urlSafeNoPad loopbackJson
          (loopbackBundle.encode urlSafeNoPad loopbackJson RemoteFleet.plainFormats) =
        .ok loopbackBundle.expiresAtMs := by
  have hspace : ∀ c ∈ " ".toList, isWhitespace c = true := List.all_eq_true.1 rfl
  have hnewline : ∀ c ∈ "\n".toList, isWhitespace c = true := List.all_eq_true.1 rfl
  exact bundle_round_trips lawful_urlSafeNoPad loopback_reads loopback_prints loopback_parses
    loopback_version loopback_expiry hspace hnewline

/-- A member that stands once is the last of its name. -/
theorem lookup_reverse_of_filter {name : String} {members : List (String × Json φ)}
    {member : String × Json φ} (h : members.filter (·.1 = name) = [member]) :
    members.reverse.lookup name = some member.2 := by
  have hname : member.1 = name :=
    of_decide_eq_true (List.mem_filter.1 (h ▸ List.mem_cons_self : member ∈ members.filter _)).2
  have hreverse : members.reverse.filter (·.1 = name) = [member] := by
    rw [List.filter_reverse, h]
    rfl
  generalize members.reverse = l at hreverse
  induction l with
  | nil => cases hreverse
  | cons first l ih =>
    rw [List.filter_cons] at hreverse
    split at hreverse
    · next heq =>
      obtain ⟨rfl, -⟩ := List.cons.inj hreverse
      rw [List.lookup_cons, hname, beq_self_eq_true]
    · next hne =>
      have hother : name ≠ first.1 := fun heq => hne (decide_eq_true heq.symm)
      rw [List.lookup_cons, beq_false_of_ne hother]
      exact ih hreverse

/-- A field that was read stands once, and is the last of its name. -/
theorem lookup_reverse_of_field {α : Type} {de : Json φ → Except String α} {name : String}
    {members : List (String × Json φ)} {a : α} (h : Json.field de name members = .ok a) :
    ∃ doc, members.reverse.lookup name = some doc ∧ de doc = .ok a := by
  obtain ⟨found, hfound, h⟩ := Outcome.bind_eq_ok_iff.1 h
  unfold Json.member at hfound
  split at hfound
  · cases hfound
    cases h
  · next doc hfilter =>
    cases hfound
    exact ⟨_, lookup_reverse_of_filter hfilter, h⟩
  · cases hfound

/-- An integer that was read as an `i64` is one. -/
theorem asI64_of_de {doc : Json φ} {n : Int} (h : (JsonFormats.i64 : Serde φ Int).de doc = .ok n) :
    asI64 doc = some n := by
  cases doc with
  | int m =>
    have hread : (if i64Min ≤ m ∧ m ≤ i64Max then Except.ok m
      else .error "invalid value, expected an integer" : Except String Int) = .ok n := h
    split at hread
    · next hfits =>
      cases hread
      exact if_pos hfits
    · cases hread
  | _ => cases h

/-- A record that was read has read each of its fields. -/
theorem get_field_ok {α β : Type} {name : String} {c : Serde φ α} {rest : Members φ β}
    {members : List (String × Json φ)} {v : α × β}
    (h : (Members.field name c rest).get members = .ok v) :
    Json.field c.de name members = .ok v.1 ∧ rest.get members = .ok v.2 := by
  obtain ⟨a, ha, h⟩ := Outcome.bind_eq_ok_iff.1 h
  obtain ⟨b, hb, h⟩ := Outcome.bind_eq_ok_iff.1 h
  cases h
  exact ⟨ha, hb⟩

/-- A bundle that was read from an object has the expiry that stands in it. -/
theorem expiry_of_readBundle {members : List (String × Json φ)}
    (h : f.readBundle (.obj members) = .ok bundle) :
    (lastMember "expires_at_ms" (.obj members)).bind asI64 = some bundle.expiresAtMs := by
  rw [readBundle_obj] at h
  obtain ⟨members', hmembers, h⟩ := Outcome.bind_eq_ok_iff.1 h
  cases hmembers
  obtain ⟨fields, hfields, h⟩ := Outcome.bind_eq_ok_iff.1 h
  cases h
  have hversion := get_field_ok hfields
  have hnodeId := get_field_ok hversion.2
  have hendpointId := get_field_ok hnodeId.2
  have haddresses := get_field_ok hendpointId.2
  have hrelays := get_field_ok haddresses.2
  have hsecret := get_field_ok hrelays.2
  have hexpiry := get_field_ok hsecret.2
  obtain ⟨doc, hdoc, hde⟩ := lookup_reverse_of_field hexpiry.1
  rw [lastMember, hdoc, Option.bind_some]
  exact asI64_of_de hde

/-- What an accepted text is: the prefix and the text of bytes that are a bundle of the current
format. -/
theorem bytes_of_decode {s : String} (h : PairingBundle.decode b64 json s = .ok bundle) :
    ∃ payload bytes, stripPrefix bundlePrefix s = some payload ∧ b64.decode payload = some bytes ∧
      json.bundle bytes = .ok bundle ∧ bundle.formatVersion = 1 := by
  unfold PairingBundle.decode at h
  split at h
  · cases h
  · next payload hstrip =>
    split at h
    · cases h
    · next bytes hbytes =>
      refine ⟨payload, bytes, hstrip, hbytes, ?_⟩
      cases hread : json.bundle bytes with
      | error error =>
        rw [hread] at h
        cases h
      | ok read =>
        rw [hread] at h
        change (if read.formatVersion ≠ 1 then _ else _) = _ at h
        split at h
        · cases h
        · next hone =>
          cases h
          exact ⟨rfl, not_not.1 hone⟩

/-- A text that is accepted is the prefix and the one text of its bytes, of the current format. The
desktop reads the same expiry from it when its document is an object that parses as a `Value`, as
every text that `encode` writes is; otherwise it finds none. -/
theorem readers_agree (hb64 : b64.Lawful) (hreads : json.Reads f) {s : String}
    (h : PairingBundle.decode b64 json s = .ok bundle) :
    ∃ bytes, s = bundlePrefix ++ b64.encode bytes ∧ bundle.formatVersion = 1 ∧
      ((∃ members, json.value bytes = .ok (.obj members)) ∧
          bundleExpiry b64 json s = .ok bundle.expiresAtMs ∨
        (∀ members, json.value bytes ≠ .ok (.obj members)) ∧
          bundleExpiry b64 json s = .error "daemon pairing bundle did not declare an expiry") := by
  obtain ⟨payload, bytes, hstrip, hbytes, hbundle, hone⟩ := bytes_of_decode h
  have hexpiry : bundleExpiry b64 json s =
      match ((json.value bytes).toOption.bind (lastMember "expires_at_ms")).bind asI64 with
      | none => .error "daemon pairing bundle did not declare an expiry"
      | some expiresAtMs => .ok expiresAtMs := by
    rw [bundleExpiry]
    simp only [hstrip, hbytes]
  refine ⟨bytes, ?_, hone, ?_⟩
  · rw [stripPrefix_eq_some_iff.1 hstrip, hb64.encode_of_decode payload bytes hbytes]
  · cases hdoc : json.value bytes with
    | error error =>
      rw [hdoc] at hexpiry
      exact .inr ⟨nofun, hexpiry⟩
    | ok doc =>
      rw [hdoc] at hexpiry
      cases doc with
      | obj members =>
        refine .inl ⟨⟨members, rfl⟩, ?_⟩
        have hmember := expiry_of_readBundle ((hreads bytes _ hdoc bundle).1 hbundle)
        simpa only [Except.toOption, Option.bind_some, hmember] using hexpiry
      | _ => exact .inr ⟨nofun, hexpiry⟩

/-- A text whose bytes are the bundle is accepted. -/
theorem loopback_accepted {bytes : List UInt8}
    (h : bytes = loopbackBytes ∨ bytes = overflowBytes) :
    PairingBundle.decode urlSafeNoPad loopbackJson (bundlePrefix ++ urlSafeNoPad.encode bytes) =
      .ok loopbackBundle := by
  have hstrip : stripPrefix bundlePrefix (bundlePrefix ++ urlSafeNoPad.encode bytes) =
      some (urlSafeNoPad.encode bytes) := stripPrefix_eq_some_iff.2 rfl
  have hbundle : loopbackJson.bundle bytes = .ok loopbackBundle := if_pos h
  rw [PairingBundle.decode]
  simp only [hstrip, lawful_urlSafeNoPad.decode_encode, hbundle]
  rfl

/-- The readers agree on the text of the bundle, and only the first one accepts the document with a
number that is none. -/
theorem readers_agree_loopback :
    (∃ bytes, bundlePrefix ++ urlSafeNoPad.encode loopbackBytes =
        bundlePrefix ++ urlSafeNoPad.encode bytes ∧ loopbackBundle.formatVersion = 1 ∧
      ((∃ members, loopbackJson.value bytes = .ok (.obj members)) ∧
          bundleExpiry urlSafeNoPad loopbackJson
            (bundlePrefix ++ urlSafeNoPad.encode loopbackBytes) =
              .ok loopbackBundle.expiresAtMs ∨
        (∀ members, loopbackJson.value bytes ≠ .ok (.obj members)) ∧
          bundleExpiry urlSafeNoPad loopbackJson
            (bundlePrefix ++ urlSafeNoPad.encode loopbackBytes) =
              .error "daemon pairing bundle did not declare an expiry")) ∧
    ∃ bytes, bundlePrefix ++ urlSafeNoPad.encode overflowBytes =
        bundlePrefix ++ urlSafeNoPad.encode bytes ∧ loopbackBundle.formatVersion = 1 ∧
      ((∃ members, loopbackJson.value bytes = .ok (.obj members)) ∧
          bundleExpiry urlSafeNoPad loopbackJson
            (bundlePrefix ++ urlSafeNoPad.encode overflowBytes) =
              .ok loopbackBundle.expiresAtMs ∨
        (∀ members, loopbackJson.value bytes ≠ .ok (.obj members)) ∧
          bundleExpiry urlSafeNoPad loopbackJson
            (bundlePrefix ++ urlSafeNoPad.encode overflowBytes) =
              .error "daemon pairing bundle did not declare an expiry") :=
  ⟨readers_agree lawful_urlSafeNoPad loopback_reads (loopback_accepted (.inl rfl)),
    readers_agree lawful_urlSafeNoPad loopback_reads (loopback_accepted (.inr rfl))⟩

end

end Rackio
