/-!
# Scripts

A script has a four-letter name and a long name whose words are joined by underscores. This module
lists the scripts; which code points belong to them is a table of its own.
-/

namespace Retrace.Unicode

/-- A script, known by its two names. -/
structure Script where
  shortName : String
  longName : String
deriving DecidableEq, Repr

namespace Script

/-- The script of code points that belong to none. -/
def unknown : Script := ⟨"Zzzz", "Unknown"⟩

/-- The script of code points that many scripts share. -/
def common : Script := ⟨"Zyyy", "Common"⟩

/-- The script of marks, which take the script of the character they follow. -/
def inherited : Script := ⟨"Zinh", "Inherited"⟩

/-- Every script. -/
def all : List Script :=
  [unknown, common, inherited, ⟨"Adlm", "Adlam"⟩, ⟨"Ahom", "Ahom"⟩,
   ⟨"Hluw", "Anatolian_Hieroglyphs"⟩, ⟨"Arab", "Arabic"⟩, ⟨"Armn", "Armenian"⟩, ⟨"Avst", "Avestan"⟩,
   ⟨"Bali", "Balinese"⟩, ⟨"Bamu", "Bamum"⟩, ⟨"Bass", "Bassa_Vah"⟩, ⟨"Batk", "Batak"⟩,
   ⟨"Beng", "Bengali"⟩, ⟨"Berf", "Beria_Erfe"⟩, ⟨"Bhks", "Bhaiksuki"⟩, ⟨"Bopo", "Bopomofo"⟩,
   ⟨"Brah", "Brahmi"⟩, ⟨"Brai", "Braille"⟩, ⟨"Bugi", "Buginese"⟩, ⟨"Buhd", "Buhid"⟩,
   ⟨"Cans", "Canadian_Aboriginal"⟩, ⟨"Cari", "Carian"⟩, ⟨"Aghb", "Caucasian_Albanian"⟩,
   ⟨"Cakm", "Chakma"⟩, ⟨"Cham", "Cham"⟩, ⟨"Cher", "Cherokee"⟩, ⟨"Chrs", "Chorasmian"⟩,
   ⟨"Copt", "Coptic"⟩, ⟨"Xsux", "Cuneiform"⟩, ⟨"Cprt", "Cypriot"⟩, ⟨"Cpmn", "Cypro_Minoan"⟩,
   ⟨"Cyrl", "Cyrillic"⟩, ⟨"Dsrt", "Deseret"⟩, ⟨"Deva", "Devanagari"⟩, ⟨"Diak", "Dives_Akuru"⟩,
   ⟨"Dogr", "Dogra"⟩, ⟨"Dupl", "Duployan"⟩, ⟨"Egyp", "Egyptian_Hieroglyphs"⟩, ⟨"Elba", "Elbasan"⟩,
   ⟨"Elym", "Elymaic"⟩, ⟨"Ethi", "Ethiopic"⟩, ⟨"Gara", "Garay"⟩, ⟨"Geor", "Georgian"⟩,
   ⟨"Glag", "Glagolitic"⟩, ⟨"Goth", "Gothic"⟩, ⟨"Gran", "Grantha"⟩, ⟨"Grek", "Greek"⟩,
   ⟨"Gujr", "Gujarati"⟩, ⟨"Gong", "Gunjala_Gondi"⟩, ⟨"Guru", "Gurmukhi"⟩, ⟨"Gukh", "Gurung_Khema"⟩,
   ⟨"Hani", "Han"⟩, ⟨"Hang", "Hangul"⟩, ⟨"Rohg", "Hanifi_Rohingya"⟩, ⟨"Hano", "Hanunoo"⟩,
   ⟨"Hatr", "Hatran"⟩, ⟨"Hebr", "Hebrew"⟩, ⟨"Hira", "Hiragana"⟩, ⟨"Armi", "Imperial_Aramaic"⟩,
   ⟨"Phli", "Inscriptional_Pahlavi"⟩, ⟨"Prti", "Inscriptional_Parthian"⟩, ⟨"Java", "Javanese"⟩,
   ⟨"Jurc", "Jurchen"⟩, ⟨"Kthi", "Kaithi"⟩, ⟨"Knda", "Kannada"⟩, ⟨"Kana", "Katakana"⟩,
   ⟨"Kawi", "Kawi"⟩, ⟨"Kali", "Kayah_Li"⟩, ⟨"Khar", "Kharoshthi"⟩, ⟨"Kits", "Khitan_Small_Script"⟩,
   ⟨"Khmr", "Khmer"⟩, ⟨"Khoj", "Khojki"⟩, ⟨"Sind", "Khudawadi"⟩, ⟨"Krai", "Kirat_Rai"⟩,
   ⟨"Laoo", "Lao"⟩, ⟨"Latn", "Latin"⟩, ⟨"Lepc", "Lepcha"⟩, ⟨"Limb", "Limbu"⟩, ⟨"Lina", "Linear_A"⟩,
   ⟨"Linb", "Linear_B"⟩, ⟨"Lisu", "Lisu"⟩, ⟨"Lyci", "Lycian"⟩, ⟨"Lydi", "Lydian"⟩,
   ⟨"Mahj", "Mahajani"⟩, ⟨"Maka", "Makasar"⟩, ⟨"Mlym", "Malayalam"⟩, ⟨"Mand", "Mandaic"⟩,
   ⟨"Mani", "Manichaean"⟩, ⟨"Marc", "Marchen"⟩, ⟨"Gonm", "Masaram_Gondi"⟩, ⟨"Medf", "Medefaidrin"⟩,
   ⟨"Mtei", "Meetei_Mayek"⟩, ⟨"Mend", "Mende_Kikakui"⟩, ⟨"Merc", "Meroitic_Cursive"⟩,
   ⟨"Mero", "Meroitic_Hieroglyphs"⟩, ⟨"Plrd", "Miao"⟩, ⟨"Modi", "Modi"⟩, ⟨"Mong", "Mongolian"⟩,
   ⟨"Mroo", "Mro"⟩, ⟨"Mult", "Multani"⟩, ⟨"Mymr", "Myanmar"⟩, ⟨"Nbat", "Nabataean"⟩,
   ⟨"Nagm", "Nag_Mundari"⟩, ⟨"Nand", "Nandinagari"⟩, ⟨"Talu", "New_Tai_Lue"⟩, ⟨"Newa", "Newa"⟩,
   ⟨"Nkoo", "Nko"⟩, ⟨"Nshu", "Nushu"⟩, ⟨"Hmnp", "Nyiakeng_Puachue_Hmong"⟩, ⟨"Ogam", "Ogham"⟩,
   ⟨"Olck", "Ol_Chiki"⟩, ⟨"Onao", "Ol_Onal"⟩, ⟨"Hung", "Old_Hungarian"⟩, ⟨"Ital", "Old_Italic"⟩,
   ⟨"Narb", "Old_North_Arabian"⟩, ⟨"Perm", "Old_Permic"⟩, ⟨"Xpeo", "Old_Persian"⟩,
   ⟨"Sogo", "Old_Sogdian"⟩, ⟨"Sarb", "Old_South_Arabian"⟩, ⟨"Orkh", "Old_Turkic"⟩,
   ⟨"Ougr", "Old_Uyghur"⟩, ⟨"Orya", "Oriya"⟩, ⟨"Osge", "Osage"⟩, ⟨"Osma", "Osmanya"⟩,
   ⟨"Hmng", "Pahawh_Hmong"⟩, ⟨"Palm", "Palmyrene"⟩, ⟨"Pauc", "Pau_Cin_Hau"⟩, ⟨"Phag", "Phags_Pa"⟩,
   ⟨"Phnx", "Phoenician"⟩, ⟨"Pcun", "Proto_Cuneiform"⟩, ⟨"Phlp", "Psalter_Pahlavi"⟩,
   ⟨"Rjng", "Rejang"⟩, ⟨"Runr", "Runic"⟩, ⟨"Samr", "Samaritan"⟩, ⟨"Saur", "Saurashtra"⟩,
   ⟨"Seal", "Seal"⟩, ⟨"Shrd", "Sharada"⟩, ⟨"Shaw", "Shavian"⟩, ⟨"Sidd", "Siddham"⟩,
   ⟨"Sidt", "Sidetic"⟩, ⟨"Sgnw", "SignWriting"⟩, ⟨"Sinh", "Sinhala"⟩, ⟨"Sogd", "Sogdian"⟩,
   ⟨"Sora", "Sora_Sompeng"⟩, ⟨"Soyo", "Soyombo"⟩, ⟨"Sund", "Sundanese"⟩, ⟨"Sunu", "Sunuwar"⟩,
   ⟨"Sylo", "Syloti_Nagri"⟩, ⟨"Syrc", "Syriac"⟩, ⟨"Tglg", "Tagalog"⟩, ⟨"Tagb", "Tagbanwa"⟩,
   ⟨"Tale", "Tai_Le"⟩, ⟨"Lana", "Tai_Tham"⟩, ⟨"Tavt", "Tai_Viet"⟩, ⟨"Tayo", "Tai_Yo"⟩,
   ⟨"Takr", "Takri"⟩, ⟨"Taml", "Tamil"⟩, ⟨"Tnsa", "Tangsa"⟩, ⟨"Tang", "Tangut"⟩, ⟨"Telu", "Telugu"⟩,
   ⟨"Thaa", "Thaana"⟩, ⟨"Thai", "Thai"⟩, ⟨"Tibt", "Tibetan"⟩, ⟨"Tfng", "Tifinagh"⟩,
   ⟨"Tirh", "Tirhuta"⟩, ⟨"Todr", "Todhri"⟩, ⟨"Tols", "Tolong_Siki"⟩, ⟨"Toto", "Toto"⟩,
   ⟨"Tutg", "Tulu_Tigalari"⟩, ⟨"Ugar", "Ugaritic"⟩, ⟨"Vaii", "Vai"⟩, ⟨"Vith", "Vithkuqi"⟩,
   ⟨"Wcho", "Wancho"⟩, ⟨"Wara", "Warang_Citi"⟩, ⟨"Yezi", "Yezidi"⟩, ⟨"Yiii", "Yi"⟩,
   ⟨"Zanb", "Zanabazar_Square"⟩]

/-- The script with the given four-letter name. -/
def ofShortName? (name : String) : Option Script := all.find? fun s => s.shortName = name

/-- The script with the given long name. -/
def ofLongName? (name : String) : Option Script := all.find? fun s => s.longName = name

end Script

end Retrace.Unicode
