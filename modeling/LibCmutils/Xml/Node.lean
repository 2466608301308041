import LibCmutils.Lib.OrderedMap
import LibCmutils.String.Basic

/-!
XML trees and their text (`src/nanoxml.c`).

* `XmlNode`: text nodes, and tags with their attributes and children. The name of a node
  is a `CMUTIL_String`, any bytes. The attributes are a `CMUTIL_Map`, here the ordered map
  it refines. Parents and user data are left out.
* `xmlEscape`: the escapes of the five characters of the markup;
  `notMem_xmlEscape` says which bytes it leaves out.
* `xmlToDocumentPrivate`, `xmlToDocument`: the printer.
-/

namespace LibCmutils

/-- `CMUTIL_XmlNode`, of the kinds `CMXmlNodeText` and `CMXmlNodeTag`. -/
inductive XmlNode
  | text (name : List UInt8)
  | tag (name : List UInt8) (attributes : OrderedMap CString (List UInt8))
      (children : List XmlNode)

/-! ### Escapes -/

/-- `g_cmutil_xml_escape_str`, the text for a byte that is escaped. -/
def xmlEscapeStr (c : UInt8) : Option (List UInt8) :=
  if c = 0x22 then some [0x26, 0x71, 0x75, 0x6F, 0x74, 0x3B]        -- &quot;
  else if c = 0x26 then some [0x26, 0x61, 0x6D, 0x70, 0x3B]         -- &amp;
  else if c = 0x27 then some [0x26, 0x61, 0x70, 0x6F, 0x73, 0x3B]   -- &apos;
  else if c = 0x3C then some [0x26, 0x6C, 0x74, 0x3B]               -- &lt;
  else if c = 0x3E then some [0x26, 0x67, 0x74, 0x3B]               -- &gt;
  else none

/-- What `CMUTIL_XmlEscape` writes for one byte. -/
def xmlEscapeByte (c : UInt8) : List UInt8 := (xmlEscapeStr c).getD [c]

/-- `CMUTIL_XmlEscape`. It ends at the first NUL. -/
def xmlEscape : List UInt8 → List UInt8
  | [] => []
  | c :: p => if c = 0 then [] else xmlEscapeByte c ++ xmlEscape p

/-- The bytes of the markup itself, which escaped text does not hold. -/
def xmlMarkup : List UInt8 := [0x22, 0x27, 0x3C, 0x3E]

set_option maxRecDepth 8000 in
lemma notMem_xmlEscapeByte {c b : UInt8} (hb : b ∈ xmlMarkup) : b ∉ xmlEscapeByte c := by
  have hall : ∀ c : UInt8, (xmlEscapeByte c).all (fun b => !xmlMarkup.contains b) = true := by
    decide
  intro h
  have hb' := List.all_eq_true.mp (hall c) b h
  simp [hb] at hb'

lemma notMem_xmlEscape {b : UInt8} (hb : b ∈ xmlMarkup) : ∀ s, b ∉ xmlEscape s
  | [] => by simp [xmlEscape]
  | c :: s => by
      rw [xmlEscape]
      split
      · simp
      · rw [List.mem_append]
        rintro (h | h)
        · exact notMem_xmlEscapeByte hb h
        · exact notMem_xmlEscape hb s h

/-! ### The printer -/

/-- `CMUTIL_XML_LINE_END`. -/
def xmlLineEnd : List UInt8 := [0x0D, 0x0A]

/-- The indentation of a node, four blanks a level. -/
def xmlIndent (depth : ℕ) : List UInt8 := (List.replicate depth [0x20, 0x20, 0x20, 0x20]).flatten

/-- `CMUTIL_XmlBuildAttribute`. -/
def xmlBuildAttribute (attributes : OrderedMap CString (List UInt8)) : List UInt8 :=
  attributes.entries.flatMap fun e =>
    0x20 :: (e.1.1 ++ [0x3D, 0x22] ++ xmlEscape e.2 ++ [0x22])

mutual

/-- `CMUTIL_XmlToDocumentPrivate`. It does not look at `beutify`. -/
def xmlToDocumentPrivate (beutify : Bool) : XmlNode → ℕ → List UInt8
  | .text name, depth => xmlIndent depth ++ xmlEscape name
  | .tag name attributes [], depth =>
      xmlIndent depth ++ 0x3C :: (name ++ xmlBuildAttribute attributes ++ [0x2F, 0x3E])
  | .tag name attributes (child :: children), depth =>
      xmlIndent depth ++ 0x3C :: (name ++ xmlBuildAttribute attributes ++ 0x3E :: xmlLineEnd ++
        xmlChildrenToDocument beutify (child :: children) (depth + 1) ++
        List.replicate depth 0x09 ++ [0x3C, 0x2F] ++ name ++ [0x3E])

/-- The loop of `CMUTIL_XmlToDocumentPrivate` over the children. -/
def xmlChildrenToDocument (beutify : Bool) : List XmlNode → ℕ → List UInt8
  | [], _ => []
  | child :: children, depth =>
      xmlToDocumentPrivate beutify child depth ++ xmlLineEnd ++
        xmlChildrenToDocument beutify children depth

end

/-- `<?xml version="1.0" encoding="UTF-8"?>`. -/
def xmlHeaderText : List UInt8 :=
  [0x3C, 0x3F, 0x78, 0x6D, 0x6C, 0x20, 0x76, 0x65, 0x72, 0x73, 0x69, 0x6F, 0x6E, 0x3D, 0x22,
    0x31, 0x2E, 0x30, 0x22, 0x20, 0x65, 0x6E, 0x63, 0x6F, 0x64, 0x69, 0x6E, 0x67, 0x3D, 0x22,
    0x55, 0x54, 0x46, 0x2D, 0x38, 0x22, 0x3F, 0x3E]

/-- `CMUTIL_XmlToDocument`. -/
def xmlToDocument (node : XmlNode) (beutify : Bool) : List UInt8 :=
  xmlHeaderText ++ xmlLineEnd ++ xmlToDocumentPrivate beutify node 0

end LibCmutils
