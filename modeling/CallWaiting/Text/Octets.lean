namespace CallWaiting

abbrev Octets := List Char

namespace Octets

def ofBytes (b : ByteArray) : Octets :=
  b.data.toList.map Char.ofUInt8

def toBytes (o : Octets) : ByteArray :=
  ⟨(o.map Char.toUInt8).toArray⟩

def ofText (s : String) : Octets :=
  ofBytes s.toUTF8

def text? (o : Octets) : Option String :=
  String.fromUTF8? o.toBytes

def ofChar (c : Char) : Octets :=
  (String.utf8EncodeChar c).map Char.ofUInt8

end Octets

end CallWaiting
