import Rounac.Lib.XmlDocument
import Rounac.MsgSerde

/-!
# The XML envelope

`serialize_msg` splices the namespace into the rendered text before its first `>`. For a message
whose root element has content that `>` ends the root's start tag, and the namespace becomes an
attribute of the root. An empty element is rendered as `<Root .../>`, and there the namespace
lands between `/` and `>`.
-/

namespace Rounac

open Xml

/-- The attribute that `xmlns` is the text of. -/
def xmlnsAttr : Attr where
  name := "xmlns".toList
  value := "https://www.vdl.afrl.af.mil/programs/oam".toList

theorem xmlnsAttr_ok : xmlnsAttr.Ok where
  name := by decide
  value := by decide
  no_quote := by decide
  no_lt := by decide

theorem xmlns_toList : xmlns.toList = xmlnsAttr.text := rfl

theorem toList_insertXmlns {s : String} {front back : List Char} (hfront : '>' ∉ front)
    (hs : s.toList = front ++ '>' :: back) :
    (insertXmlns s).toList = front ++ xmlnsAttr.text ++ '>' :: back := by
  have hall : ∀ c ∈ front, (c != '>') = true :=
    fun c hc => bne_iff_ne.2 fun h => hfront (h ▸ hc)
  have hspan : s.toList.span (· != '>') = (front, '>' :: back) := by
    rw [hs, List.span_eq_takeWhile_dropWhile, List.takeWhile_append_of_pos hall,
      List.dropWhile_append_of_pos hall]
    simp
  simp only [insertXmlns, hspan, xmlns_toList, String.toList_ofList]

theorem fromUTF8?_toUTF8 (s : String) : String.fromUTF8? s.toUTF8 = some s :=
  dif_pos s.isValidUTF8

variable {Val : Type} {qx : QuickXml Val} {T : TypeId} {msg : Val}

theorem serializeMsg_of_toString {s : String} (hs : qx.toString T msg = .ok s) :
    serializeMsg qx T .xml msg = .ok (insertXmlns s).toUTF8 := by
  simp only [serializeMsg, hs]
  rfl

theorem deserializeMsg_toUTF8 (doc : String) :
    deserializeMsg qx T .xml doc.toUTF8 = qx.fromStr T doc := by
  simp only [deserializeMsg, fromUTF8?_toUTF8]

/-- The document parses to `e` with the namespace as one more attribute at its root. -/
def Enveloped (e : Element) (doc : String) : Prop :=
  Xml.parse doc.toList = some (e.addAttr xmlnsAttr)

/-- `insertXmlns` makes an envelope exactly when the root has content. -/
theorem enveloped_insertXmlns_iff {s : String} {e : Element}
    (hparse : Xml.parse s.toList = some e) (hvalues : ∀ a ∈ e.tag.attrs, '>' ∉ a.value)
    (hxmlns : ∀ a ∈ e.tag.attrs, a.name ≠ xmlnsAttr.name)
    (hempty : e.children = [] → SelfClosing s.toList) :
    Enveloped e (insertXmlns s) ↔ e.children ≠ [] := by
  obtain ⟨front, back, hs, hfront⟩ := List.eq_append_cons_of_mem (gt_mem_of_parse hparse)
  rw [Enveloped, toList_insertXmlns hfront hs]
  rw [hs] at hparse hempty
  exact parse_splice_iff hfront hparse (fun ⟨a, ha, hgt⟩ => hvalues a ha hgt) xmlnsAttr_ok hxmlns
    hempty

/-- **`serialize_msg` returns a document that parses to the message's element with the namespace
added to its root exactly when that element has content**; a message of a type that ignores the
attribute and round-trips through `quick_xml` is then read back. `hempty` is how `quick_xml`
renders an element without content. -/
theorem envelope_iff {s : String} {e : Element} (hrender : qx.toString T msg = .ok s)
    (hparse : Xml.parse s.toList = some e) (hvalues : ∀ a ∈ e.tag.attrs, '>' ∉ a.value)
    (hxmlns : ∀ a ∈ e.tag.attrs, a.name ≠ xmlnsAttr.name)
    (hempty : e.children = [] → SelfClosing s.toList) :
    ((∃ doc : String, serializeMsg qx T .xml msg = .ok doc.toUTF8 ∧ Enveloped e doc) ↔
      e.children ≠ []) ∧
    (e.children ≠ [] → qx.fromStr T s = .ok msg →
      (∀ doc, Enveloped e doc → qx.fromStr T doc = qx.fromStr T s) →
      (serializeMsg qx T .xml msg >>= deserializeMsg qx T .xml) = .ok msg) := by
  have hiff := enveloped_insertXmlns_iff hparse hvalues hxmlns hempty
  have hser := serializeMsg_of_toString hrender
  refine ⟨⟨?_, fun hchildren => ⟨_, hser, hiff.2 hchildren⟩⟩, fun hchildren hback hignores => ?_⟩
  · rintro ⟨doc, hdoc, henv⟩
    have heq : insertXmlns s = doc :=
      String.toByteArray_inj.1 (Except.ok.inj (hser.symm.trans hdoc))
    exact hiff.1 (heq ▸ henv)
  · calc (serializeMsg qx T .xml msg >>= deserializeMsg qx T .xml)
        = deserializeMsg qx T .xml (insertXmlns s).toUTF8 := by rw [hser]; rfl
      _ = qx.fromStr T (insertXmlns s) := deserializeMsg_toUTF8 _
      _ = .ok msg := (hignores _ (hiff.2 hchildren)).trans hback

/-- A library that renders the one message of each type as a fixed document, and reads every
document of an element of the same name. -/
def QuickXml.fixed (doc root : String) : QuickXml Unit where
  toString := fun _ _ => .ok doc
  fromStr := fun _ s =>
    match Xml.parse s.toList with
    | some e => if e.tag.name = root.toList then .ok () else .error (.serdeErr "unexpected root")
    | none => .error (.serdeErr "not a document")

theorem envelope_iff_with_content :
    (serializeMsg (QuickXml.fixed "<Root id=\"1\"><a/>text</Root>" "Root") ⟨0⟩ .xml () >>=
      deserializeMsg (QuickXml.fixed "<Root id=\"1\"><a/>text</Root>" "Root") ⟨0⟩ .xml) =
      .ok () := by
  refine (envelope_iff (s := "<Root id=\"1\"><a/>text</Root>")
    (e := ⟨⟨"Root".toList, [⟨"id".toList, "1".toList⟩]⟩,
      [.elem ⟨"a".toList, []⟩ [], .text "text".toList]⟩) rfl rfl ?_ ?_ ?_).2 ?_ rfl ?_
  · decide
  · decide
  · exact fun h => by cases h
  · exact fun h => by cases h
  · intro doc hdoc
    simp only [QuickXml.fixed, Enveloped] at hdoc ⊢
    rw [hdoc]
    rfl

/-- The rendering `<Root/>` of a unit struct becomes a text that is no document. -/
theorem empty_root_broken :
    ∃ (qx : QuickXml Unit) (e : Element), qx.toString ⟨0⟩ () = .ok "<Root/>" ∧
      Xml.parse "<Root/>".toList = some e ∧ (∀ a ∈ e.tag.attrs, '>' ∉ a.value) ∧
      (∀ a ∈ e.tag.attrs, a.name ≠ xmlnsAttr.name) ∧
      (e.children = [] → SelfClosing "<Root/>".toList) ∧
      ∃ doc : String, serializeMsg qx ⟨0⟩ .xml () = .ok doc.toUTF8 ∧
        Xml.parse doc.toList = none := by
  refine ⟨.fixed "<Root/>" "Root", ⟨⟨"Root".toList, []⟩, []⟩, rfl, rfl, by simp, by simp,
    fun _ => ⟨"<Root".toList, rfl, by decide⟩, insertXmlns "<Root/>", rfl, ?_⟩
  rfl

end Rounac
