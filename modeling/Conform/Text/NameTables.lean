/-
# `Text.NameTables` — the names of characters

The characters with a name of their own in the blocks of the European
alphabets, Hebrew, punctuation, currencies, arrows and mathematics, the other
names of control characters and blanks, and the characters that are named by
their number (Unicode 14).
-/

namespace Conform.Text

/-- Characters from `first`, `step` apart, with what follows `lead` in their
names. -/
structure NameRun where
  first : Nat
  step : Nat
  lead : String
  names : List String

def nameRuns : List NameRun :=
  [⟨0x20, 1, "", ["SPACE", "EXCLAMATION MARK", "QUOTATION MARK", "NUMBER SIGN", "DOLLAR SIGN",
     "PERCENT SIGN", "AMPERSAND", "APOSTROPHE", "LEFT PARENTHESIS", "RIGHT PARENTHESIS",
     "ASTERISK", "PLUS SIGN", "COMMA", "HYPHEN-MINUS", "FULL STOP", "SOLIDUS"]⟩,
   ⟨0x30, 1, "DIGIT ", ["ZERO", "ONE", "TWO", "THREE", "FOUR", "FIVE", "SIX", "SEVEN", "EIGHT",
     "NINE"]⟩,
   ⟨0x3a, 1, "", ["COLON", "SEMICOLON", "LESS-THAN SIGN", "EQUALS SIGN", "GREATER-THAN SIGN",
     "QUESTION MARK", "COMMERCIAL AT"]⟩,
   ⟨0x41, 1, "LATIN CAPITAL LETTER ", ["A", "B", "C", "D", "E", "F", "G", "H", "I", "J", "K", "L",
     "M", "N", "O", "P", "Q", "R", "S", "T", "U", "V", "W", "X", "Y", "Z"]⟩,
   ⟨0x5b, 1, "", ["LEFT SQUARE BRACKET", "REVERSE SOLIDUS", "RIGHT SQUARE BRACKET",
     "CIRCUMFLEX ACCENT", "LOW LINE", "GRAVE ACCENT"]⟩,
   ⟨0x61, 1, "LATIN SMALL LETTER ", ["A", "B", "C", "D", "E", "F", "G", "H", "I", "J", "K", "L",
     "M", "N", "O", "P", "Q", "R", "S", "T", "U", "V", "W", "X", "Y", "Z"]⟩,
   ⟨0x7b, 1, "", ["LEFT CURLY BRACKET", "VERTICAL LINE", "RIGHT CURLY BRACKET", "TILDE"]⟩,
   ⟨0xa0, 1, "", ["NO-BREAK SPACE", "INVERTED EXCLAMATION MARK", "CENT SIGN", "POUND SIGN",
     "CURRENCY SIGN", "YEN SIGN", "BROKEN BAR", "SECTION SIGN", "DIAERESIS", "COPYRIGHT SIGN",
     "FEMININE ORDINAL INDICATOR", "LEFT-POINTING DOUBLE ANGLE QUOTATION MARK", "NOT SIGN",
     "SOFT HYPHEN", "REGISTERED SIGN", "MACRON", "DEGREE SIGN", "PLUS-MINUS SIGN",
     "SUPERSCRIPT TWO", "SUPERSCRIPT THREE", "ACUTE ACCENT", "MICRO SIGN", "PILCROW SIGN",
     "MIDDLE DOT", "CEDILLA", "SUPERSCRIPT ONE", "MASCULINE ORDINAL INDICATOR",
     "RIGHT-POINTING DOUBLE ANGLE QUOTATION MARK", "VULGAR FRACTION ONE QUARTER",
     "VULGAR FRACTION ONE HALF", "VULGAR FRACTION THREE QUARTERS", "INVERTED QUESTION MARK"]⟩,
   ⟨0xc0, 1, "LATIN CAPITAL LETTER ", ["A WITH GRAVE", "A WITH ACUTE", "A WITH CIRCUMFLEX",
     "A WITH TILDE", "A WITH DIAERESIS", "A WITH RING ABOVE", "AE", "C WITH CEDILLA",
     "E WITH GRAVE", "E WITH ACUTE", "E WITH CIRCUMFLEX", "E WITH DIAERESIS", "I WITH GRAVE",
     "I WITH ACUTE", "I WITH CIRCUMFLEX", "I WITH DIAERESIS", "ETH", "N WITH TILDE",
     "O WITH GRAVE", "O WITH ACUTE", "O WITH CIRCUMFLEX", "O WITH TILDE", "O WITH DIAERESIS"]⟩,
   ⟨0xd7, 1, "", ["MULTIPLICATION SIGN"]⟩,
   ⟨0xd8, 1, "LATIN CAPITAL LETTER ", ["O WITH STROKE", "U WITH GRAVE", "U WITH ACUTE",
     "U WITH CIRCUMFLEX", "U WITH DIAERESIS", "Y WITH ACUTE", "THORN"]⟩,
   ⟨0xdf, 1, "LATIN SMALL LETTER ", ["SHARP S", "A WITH GRAVE", "A WITH ACUTE",
     "A WITH CIRCUMFLEX", "A WITH TILDE", "A WITH DIAERESIS", "A WITH RING ABOVE", "AE",
     "C WITH CEDILLA", "E WITH GRAVE", "E WITH ACUTE", "E WITH CIRCUMFLEX", "E WITH DIAERESIS",
     "I WITH GRAVE", "I WITH ACUTE", "I WITH CIRCUMFLEX", "I WITH DIAERESIS", "ETH",
     "N WITH TILDE", "O WITH GRAVE", "O WITH ACUTE", "O WITH CIRCUMFLEX", "O WITH TILDE",
     "O WITH DIAERESIS"]⟩,
   ⟨0xf7, 1, "", ["DIVISION SIGN"]⟩,
   ⟨0xf8, 1, "LATIN SMALL LETTER ", ["O WITH STROKE", "U WITH GRAVE", "U WITH ACUTE",
     "U WITH CIRCUMFLEX", "U WITH DIAERESIS", "Y WITH ACUTE", "THORN", "Y WITH DIAERESIS"]⟩,
   ⟨0x100, 2, "LATIN CAPITAL LETTER ", ["A WITH MACRON", "A WITH BREVE", "A WITH OGONEK",
     "C WITH ACUTE", "C WITH CIRCUMFLEX", "C WITH DOT ABOVE", "C WITH CARON", "D WITH CARON",
     "D WITH STROKE", "E WITH MACRON", "E WITH BREVE", "E WITH DOT ABOVE", "E WITH OGONEK",
     "E WITH CARON", "G WITH CIRCUMFLEX", "G WITH BREVE", "G WITH DOT ABOVE", "G WITH CEDILLA",
     "H WITH CIRCUMFLEX", "H WITH STROKE", "I WITH TILDE", "I WITH MACRON", "I WITH BREVE",
     "I WITH OGONEK", "I WITH DOT ABOVE"]⟩,
   ⟨0x101, 2, "LATIN SMALL LETTER ", ["A WITH MACRON", "A WITH BREVE", "A WITH OGONEK",
     "C WITH ACUTE", "C WITH CIRCUMFLEX", "C WITH DOT ABOVE", "C WITH CARON", "D WITH CARON",
     "D WITH STROKE", "E WITH MACRON", "E WITH BREVE", "E WITH DOT ABOVE", "E WITH OGONEK",
     "E WITH CARON", "G WITH CIRCUMFLEX", "G WITH BREVE", "G WITH DOT ABOVE", "G WITH CEDILLA",
     "H WITH CIRCUMFLEX", "H WITH STROKE", "I WITH TILDE", "I WITH MACRON", "I WITH BREVE",
     "I WITH OGONEK", "DOTLESS I"]⟩,
   ⟨0x132, 1, "", ["LATIN CAPITAL LIGATURE IJ", "LATIN SMALL LIGATURE IJ"]⟩,
   ⟨0x134, 2, "LATIN CAPITAL LETTER ", ["J WITH CIRCUMFLEX", "K WITH CEDILLA"]⟩,
   ⟨0x135, 2, "LATIN SMALL LETTER ", ["J WITH CIRCUMFLEX", "K WITH CEDILLA"]⟩,
   ⟨0x138, 2, "LATIN SMALL LETTER ", ["KRA", "L WITH ACUTE", "L WITH CEDILLA", "L WITH CARON",
     "L WITH MIDDLE DOT", "L WITH STROKE", "N WITH ACUTE", "N WITH CEDILLA", "N WITH CARON"]⟩,
   ⟨0x139, 2, "LATIN CAPITAL LETTER ", ["L WITH ACUTE", "L WITH CEDILLA", "L WITH CARON",
     "L WITH MIDDLE DOT", "L WITH STROKE", "N WITH ACUTE", "N WITH CEDILLA", "N WITH CARON"]⟩,
   ⟨0x149, 2, "LATIN SMALL LETTER ", ["N PRECEDED BY APOSTROPHE", "ENG", "O WITH MACRON",
     "O WITH BREVE", "O WITH DOUBLE ACUTE"]⟩,
   ⟨0x14a, 2, "LATIN CAPITAL LETTER ", ["ENG", "O WITH MACRON", "O WITH BREVE",
     "O WITH DOUBLE ACUTE"]⟩,
   ⟨0x152, 1, "", ["LATIN CAPITAL LIGATURE OE", "LATIN SMALL LIGATURE OE"]⟩,
   ⟨0x154, 2, "LATIN CAPITAL LETTER ", ["R WITH ACUTE", "R WITH CEDILLA", "R WITH CARON",
     "S WITH ACUTE", "S WITH CIRCUMFLEX", "S WITH CEDILLA", "S WITH CARON", "T WITH CEDILLA",
     "T WITH CARON", "T WITH STROKE", "U WITH TILDE", "U WITH MACRON", "U WITH BREVE",
     "U WITH RING ABOVE", "U WITH DOUBLE ACUTE", "U WITH OGONEK", "W WITH CIRCUMFLEX",
     "Y WITH CIRCUMFLEX", "Y WITH DIAERESIS"]⟩,
   ⟨0x155, 2, "LATIN SMALL LETTER ", ["R WITH ACUTE", "R WITH CEDILLA", "R WITH CARON",
     "S WITH ACUTE", "S WITH CIRCUMFLEX", "S WITH CEDILLA", "S WITH CARON", "T WITH CEDILLA",
     "T WITH CARON", "T WITH STROKE", "U WITH TILDE", "U WITH MACRON", "U WITH BREVE",
     "U WITH RING ABOVE", "U WITH DOUBLE ACUTE", "U WITH OGONEK", "W WITH CIRCUMFLEX",
     "Y WITH CIRCUMFLEX"]⟩,
   ⟨0x179, 2, "LATIN CAPITAL LETTER ", ["Z WITH ACUTE", "Z WITH DOT ABOVE", "Z WITH CARON"]⟩,
   ⟨0x17a, 2, "LATIN SMALL LETTER ", ["Z WITH ACUTE", "Z WITH DOT ABOVE", "Z WITH CARON"]⟩,
   ⟨0x17f, 1, "LATIN SMALL LETTER ", ["LONG S"]⟩,
   ⟨0x300, 1, "COMBINING ", ["GRAVE ACCENT", "ACUTE ACCENT", "CIRCUMFLEX ACCENT", "TILDE",
     "MACRON", "OVERLINE", "BREVE", "DOT ABOVE", "DIAERESIS", "HOOK ABOVE", "RING ABOVE",
     "DOUBLE ACUTE ACCENT", "CARON", "VERTICAL LINE ABOVE", "DOUBLE VERTICAL LINE ABOVE",
     "DOUBLE GRAVE ACCENT", "CANDRABINDU", "INVERTED BREVE", "TURNED COMMA ABOVE", "COMMA ABOVE",
     "REVERSED COMMA ABOVE", "COMMA ABOVE RIGHT", "GRAVE ACCENT BELOW", "ACUTE ACCENT BELOW",
     "LEFT TACK BELOW", "RIGHT TACK BELOW", "LEFT ANGLE ABOVE", "HORN", "LEFT HALF RING BELOW",
     "UP TACK BELOW", "DOWN TACK BELOW", "PLUS SIGN BELOW", "MINUS SIGN BELOW",
     "PALATALIZED HOOK BELOW", "RETROFLEX HOOK BELOW", "DOT BELOW", "DIAERESIS BELOW",
     "RING BELOW", "COMMA BELOW", "CEDILLA", "OGONEK", "VERTICAL LINE BELOW", "BRIDGE BELOW",
     "INVERTED DOUBLE ARCH BELOW", "CARON BELOW", "CIRCUMFLEX ACCENT BELOW", "BREVE BELOW",
     "INVERTED BREVE BELOW"]⟩,
   ⟨0x330, 1, "COMBINING ", ["TILDE BELOW", "MACRON BELOW", "LOW LINE", "DOUBLE LOW LINE",
     "TILDE OVERLAY", "SHORT STROKE OVERLAY", "LONG STROKE OVERLAY", "SHORT SOLIDUS OVERLAY",
     "LONG SOLIDUS OVERLAY", "RIGHT HALF RING BELOW", "INVERTED BRIDGE BELOW", "SQUARE BELOW",
     "SEAGULL BELOW", "X ABOVE", "VERTICAL TILDE", "DOUBLE OVERLINE", "GRAVE TONE MARK",
     "ACUTE TONE MARK", "GREEK PERISPOMENI", "GREEK KORONIS", "GREEK DIALYTIKA TONOS",
     "GREEK YPOGEGRAMMENI", "BRIDGE ABOVE", "EQUALS SIGN BELOW", "DOUBLE VERTICAL LINE BELOW",
     "LEFT ANGLE BELOW", "NOT TILDE ABOVE", "HOMOTHETIC ABOVE", "ALMOST EQUAL TO ABOVE",
     "LEFT RIGHT ARROW BELOW", "UPWARDS ARROW BELOW", "GRAPHEME JOINER", "RIGHT ARROWHEAD ABOVE",
     "LEFT HALF RING ABOVE", "FERMATA", "X BELOW", "LEFT ARROWHEAD BELOW", "RIGHT ARROWHEAD BELOW",
     "RIGHT ARROWHEAD AND UP ARROWHEAD BELOW", "RIGHT HALF RING ABOVE", "DOT ABOVE RIGHT",
     "ASTERISK BELOW", "DOUBLE RING BELOW", "ZIGZAG ABOVE", "DOUBLE BREVE BELOW", "DOUBLE BREVE",
     "DOUBLE MACRON", "DOUBLE MACRON BELOW"]⟩,
   ⟨0x360, 1, "COMBINING ", ["DOUBLE TILDE", "DOUBLE INVERTED BREVE",
     "DOUBLE RIGHTWARDS ARROW BELOW", "LATIN SMALL LETTER A", "LATIN SMALL LETTER E",
     "LATIN SMALL LETTER I", "LATIN SMALL LETTER O", "LATIN SMALL LETTER U",
     "LATIN SMALL LETTER C", "LATIN SMALL LETTER D", "LATIN SMALL LETTER H",
     "LATIN SMALL LETTER M", "LATIN SMALL LETTER R", "LATIN SMALL LETTER T",
     "LATIN SMALL LETTER V", "LATIN SMALL LETTER X"]⟩,
   ⟨0x370, 2, "GREEK CAPITAL LETTER ", ["HETA", "ARCHAIC SAMPI"]⟩,
   ⟨0x371, 2, "GREEK SMALL LETTER ", ["HETA", "ARCHAIC SAMPI"]⟩,
   ⟨0x374, 1, "", ["GREEK NUMERAL SIGN", "GREEK LOWER NUMERAL SIGN"]⟩,
   ⟨0x376, 1, "GREEK CAPITAL LETTER ", ["PAMPHYLIAN DIGAMMA"]⟩,
   ⟨0x377, 1, "GREEK SMALL LETTER ", ["PAMPHYLIAN DIGAMMA"]⟩,
   ⟨0x37a, 1, "", ["GREEK YPOGEGRAMMENI", "GREEK SMALL REVERSED LUNATE SIGMA SYMBOL",
     "GREEK SMALL DOTTED LUNATE SIGMA SYMBOL", "GREEK SMALL REVERSED DOTTED LUNATE SIGMA SYMBOL",
     "GREEK QUESTION MARK"]⟩,
   ⟨0x37f, 1, "GREEK CAPITAL LETTER ", ["YOT"]⟩,
   ⟨0x384, 1, "", ["GREEK TONOS", "GREEK DIALYTIKA TONOS"]⟩,
   ⟨0x386, 2, "GREEK CAPITAL LETTER ", ["ALPHA WITH TONOS", "EPSILON WITH TONOS"]⟩,
   ⟨0x387, 1, "", ["GREEK ANO TELEIA"]⟩,
   ⟨0x389, 1, "GREEK CAPITAL LETTER ", ["ETA WITH TONOS", "IOTA WITH TONOS"]⟩,
   ⟨0x38c, 2, "GREEK CAPITAL LETTER ", ["OMICRON WITH TONOS", "UPSILON WITH TONOS"]⟩,
   ⟨0x38f, 2, "GREEK CAPITAL LETTER ", ["OMEGA WITH TONOS", "ALPHA"]⟩,
   ⟨0x390, 1, "GREEK SMALL LETTER ", ["IOTA WITH DIALYTIKA AND TONOS"]⟩,
   ⟨0x392, 1, "GREEK CAPITAL LETTER ", ["BETA", "GAMMA", "DELTA", "EPSILON", "ZETA", "ETA",
     "THETA", "IOTA", "KAPPA", "LAMDA", "MU", "NU", "XI", "OMICRON", "PI", "RHO"]⟩,
   ⟨0x3a3, 1, "GREEK CAPITAL LETTER ", ["SIGMA", "TAU", "UPSILON", "PHI", "CHI", "PSI", "OMEGA",
     "IOTA WITH DIALYTIKA", "UPSILON WITH DIALYTIKA"]⟩,
   ⟨0x3ac, 1, "GREEK SMALL LETTER ", ["ALPHA WITH TONOS", "EPSILON WITH TONOS", "ETA WITH TONOS",
     "IOTA WITH TONOS", "UPSILON WITH DIALYTIKA AND TONOS", "ALPHA", "BETA", "GAMMA", "DELTA",
     "EPSILON", "ZETA", "ETA", "THETA", "IOTA", "KAPPA", "LAMDA", "MU", "NU", "XI", "OMICRON",
     "PI", "RHO", "FINAL SIGMA", "SIGMA", "TAU", "UPSILON", "PHI", "CHI", "PSI", "OMEGA",
     "IOTA WITH DIALYTIKA", "UPSILON WITH DIALYTIKA", "OMICRON WITH TONOS", "UPSILON WITH TONOS",
     "OMEGA WITH TONOS"]⟩,
   ⟨0x3cf, 1, "", ["GREEK CAPITAL KAI SYMBOL", "GREEK BETA SYMBOL", "GREEK THETA SYMBOL",
     "GREEK UPSILON WITH HOOK SYMBOL", "GREEK UPSILON WITH ACUTE AND HOOK SYMBOL",
     "GREEK UPSILON WITH DIAERESIS AND HOOK SYMBOL", "GREEK PHI SYMBOL", "GREEK PI SYMBOL",
     "GREEK KAI SYMBOL", "GREEK LETTER ARCHAIC KOPPA"]⟩,
   ⟨0x3d9, 2, "GREEK SMALL LETTER ", ["ARCHAIC KOPPA", "STIGMA", "DIGAMMA", "KOPPA", "SAMPI"]⟩,
   ⟨0x3da, 2, "", ["GREEK LETTER STIGMA", "GREEK LETTER DIGAMMA", "GREEK LETTER KOPPA",
     "GREEK LETTER SAMPI"]⟩,
   ⟨0x3e2, 2, "COPTIC CAPITAL LETTER ", ["SHEI", "FEI", "KHEI", "HORI", "GANGIA", "SHIMA", "DEI"]⟩,
   ⟨0x3e3, 2, "COPTIC SMALL LETTER ", ["SHEI", "FEI", "KHEI", "HORI", "GANGIA", "SHIMA", "DEI"]⟩,
   ⟨0x3f0, 1, "", ["GREEK KAPPA SYMBOL", "GREEK RHO SYMBOL", "GREEK LUNATE SIGMA SYMBOL",
     "GREEK LETTER YOT", "GREEK CAPITAL THETA SYMBOL", "GREEK LUNATE EPSILON SYMBOL",
     "GREEK REVERSED LUNATE EPSILON SYMBOL"]⟩,
   ⟨0x3f7, 1, "GREEK CAPITAL LETTER ", ["SHO"]⟩,
   ⟨0x3f8, 1, "GREEK SMALL LETTER ", ["SHO"]⟩,
   ⟨0x3f9, 1, "", ["GREEK CAPITAL LUNATE SIGMA SYMBOL"]⟩,
   ⟨0x3fa, 1, "GREEK CAPITAL LETTER ", ["SAN"]⟩,
   ⟨0x3fb, 1, "GREEK SMALL LETTER ", ["SAN"]⟩,
   ⟨0x3fc, 1, "", ["GREEK RHO WITH STROKE SYMBOL", "GREEK CAPITAL REVERSED LUNATE SIGMA SYMBOL",
     "GREEK CAPITAL DOTTED LUNATE SIGMA SYMBOL",
     "GREEK CAPITAL REVERSED DOTTED LUNATE SIGMA SYMBOL"]⟩,
   ⟨0x400, 1, "CYRILLIC CAPITAL LETTER ", ["IE WITH GRAVE", "IO", "DJE", "GJE", "UKRAINIAN IE",
     "DZE", "BYELORUSSIAN-UKRAINIAN I", "YI", "JE", "LJE", "NJE", "TSHE", "KJE", "I WITH GRAVE",
     "SHORT U", "DZHE", "A", "BE", "VE", "GHE", "DE", "IE", "ZHE", "ZE", "I", "SHORT I", "KA",
     "EL", "EM", "EN", "O", "PE", "ER", "ES", "TE", "U", "EF", "HA", "TSE", "CHE", "SHA", "SHCHA",
     "HARD SIGN", "YERU", "SOFT SIGN", "E", "YU", "YA"]⟩,
   ⟨0x430, 1, "CYRILLIC SMALL LETTER ", ["A", "BE", "VE", "GHE", "DE", "IE", "ZHE", "ZE", "I",
     "SHORT I", "KA", "EL", "EM", "EN", "O", "PE", "ER", "ES", "TE", "U", "EF", "HA", "TSE", "CHE",
     "SHA", "SHCHA", "HARD SIGN", "YERU", "SOFT SIGN", "E", "YU", "YA", "IE WITH GRAVE", "IO",
     "DJE", "GJE", "UKRAINIAN IE", "DZE", "BYELORUSSIAN-UKRAINIAN I", "YI", "JE", "LJE", "NJE",
     "TSHE", "KJE", "I WITH GRAVE", "SHORT U", "DZHE"]⟩,
   ⟨0x5d0, 1, "HEBREW LETTER ", ["ALEF", "BET", "GIMEL", "DALET", "HE", "VAV", "ZAYIN", "HET",
     "TET", "YOD", "FINAL KAF", "KAF", "LAMED", "FINAL MEM", "MEM", "FINAL NUN", "NUN", "SAMEKH",
     "AYIN", "FINAL PE", "PE", "FINAL TSADI", "TSADI", "QOF", "RESH", "SHIN", "TAV"]⟩,
   ⟨0x2000, 1, "", ["EN QUAD", "EM QUAD", "EN SPACE", "EM SPACE", "THREE-PER-EM SPACE",
     "FOUR-PER-EM SPACE", "SIX-PER-EM SPACE", "FIGURE SPACE", "PUNCTUATION SPACE", "THIN SPACE",
     "HAIR SPACE", "ZERO WIDTH SPACE", "ZERO WIDTH NON-JOINER", "ZERO WIDTH JOINER",
     "LEFT-TO-RIGHT MARK", "RIGHT-TO-LEFT MARK", "HYPHEN", "NON-BREAKING HYPHEN", "FIGURE DASH",
     "EN DASH", "EM DASH", "HORIZONTAL BAR", "DOUBLE VERTICAL LINE", "DOUBLE LOW LINE",
     "LEFT SINGLE QUOTATION MARK", "RIGHT SINGLE QUOTATION MARK", "SINGLE LOW-9 QUOTATION MARK",
     "SINGLE HIGH-REVERSED-9 QUOTATION MARK", "LEFT DOUBLE QUOTATION MARK",
     "RIGHT DOUBLE QUOTATION MARK", "DOUBLE LOW-9 QUOTATION MARK",
     "DOUBLE HIGH-REVERSED-9 QUOTATION MARK", "DAGGER", "DOUBLE DAGGER", "BULLET",
     "TRIANGULAR BULLET", "ONE DOT LEADER", "TWO DOT LEADER", "HORIZONTAL ELLIPSIS",
     "HYPHENATION POINT", "LINE SEPARATOR", "PARAGRAPH SEPARATOR", "LEFT-TO-RIGHT EMBEDDING",
     "RIGHT-TO-LEFT EMBEDDING", "POP DIRECTIONAL FORMATTING", "LEFT-TO-RIGHT OVERRIDE",
     "RIGHT-TO-LEFT OVERRIDE", "NARROW NO-BREAK SPACE"]⟩,
   ⟨0x2030, 1, "", ["PER MILLE SIGN", "PER TEN THOUSAND SIGN", "PRIME", "DOUBLE PRIME",
     "TRIPLE PRIME", "REVERSED PRIME", "REVERSED DOUBLE PRIME", "REVERSED TRIPLE PRIME", "CARET",
     "SINGLE LEFT-POINTING ANGLE QUOTATION MARK", "SINGLE RIGHT-POINTING ANGLE QUOTATION MARK",
     "REFERENCE MARK", "DOUBLE EXCLAMATION MARK", "INTERROBANG", "OVERLINE", "UNDERTIE",
     "CHARACTER TIE", "CARET INSERTION POINT", "ASTERISM", "HYPHEN BULLET", "FRACTION SLASH",
     "LEFT SQUARE BRACKET WITH QUILL", "RIGHT SQUARE BRACKET WITH QUILL", "DOUBLE QUESTION MARK",
     "QUESTION EXCLAMATION MARK", "EXCLAMATION QUESTION MARK", "TIRONIAN SIGN ET",
     "REVERSED PILCROW SIGN", "BLACK LEFTWARDS BULLET", "BLACK RIGHTWARDS BULLET", "LOW ASTERISK",
     "REVERSED SEMICOLON", "CLOSE UP", "TWO ASTERISKS ALIGNED VERTICALLY", "COMMERCIAL MINUS SIGN",
     "SWUNG DASH", "INVERTED UNDERTIE", "FLOWER PUNCTUATION MARK", "THREE DOT PUNCTUATION",
     "QUADRUPLE PRIME", "FOUR DOT PUNCTUATION", "FIVE DOT PUNCTUATION", "TWO DOT PUNCTUATION",
     "FOUR DOT MARK", "DOTTED CROSS", "TRICOLON", "VERTICAL FOUR DOTS",
     "MEDIUM MATHEMATICAL SPACE"]⟩,
   ⟨0x2060, 1, "", ["WORD JOINER", "FUNCTION APPLICATION", "INVISIBLE TIMES",
     "INVISIBLE SEPARATOR", "INVISIBLE PLUS"]⟩,
   ⟨0x2066, 1, "", ["LEFT-TO-RIGHT ISOLATE", "RIGHT-TO-LEFT ISOLATE", "FIRST STRONG ISOLATE",
     "POP DIRECTIONAL ISOLATE", "INHIBIT SYMMETRIC SWAPPING", "ACTIVATE SYMMETRIC SWAPPING",
     "INHIBIT ARABIC FORM SHAPING", "ACTIVATE ARABIC FORM SHAPING", "NATIONAL DIGIT SHAPES",
     "NOMINAL DIGIT SHAPES", "SUPERSCRIPT ZERO", "SUPERSCRIPT LATIN SMALL LETTER I"]⟩,
   ⟨0x2074, 1, "", ["SUPERSCRIPT FOUR", "SUPERSCRIPT FIVE", "SUPERSCRIPT SIX", "SUPERSCRIPT SEVEN",
     "SUPERSCRIPT EIGHT", "SUPERSCRIPT NINE", "SUPERSCRIPT PLUS SIGN", "SUPERSCRIPT MINUS",
     "SUPERSCRIPT EQUALS SIGN", "SUPERSCRIPT LEFT PARENTHESIS", "SUPERSCRIPT RIGHT PARENTHESIS",
     "SUPERSCRIPT LATIN SMALL LETTER N", "SUBSCRIPT ZERO", "SUBSCRIPT ONE", "SUBSCRIPT TWO",
     "SUBSCRIPT THREE", "SUBSCRIPT FOUR", "SUBSCRIPT FIVE", "SUBSCRIPT SIX", "SUBSCRIPT SEVEN",
     "SUBSCRIPT EIGHT", "SUBSCRIPT NINE", "SUBSCRIPT PLUS SIGN", "SUBSCRIPT MINUS",
     "SUBSCRIPT EQUALS SIGN", "SUBSCRIPT LEFT PARENTHESIS", "SUBSCRIPT RIGHT PARENTHESIS"]⟩,
   ⟨0x2090, 1, "", ["LATIN SUBSCRIPT SMALL LETTER A", "LATIN SUBSCRIPT SMALL LETTER E",
     "LATIN SUBSCRIPT SMALL LETTER O", "LATIN SUBSCRIPT SMALL LETTER X",
     "LATIN SUBSCRIPT SMALL LETTER SCHWA", "LATIN SUBSCRIPT SMALL LETTER H",
     "LATIN SUBSCRIPT SMALL LETTER K", "LATIN SUBSCRIPT SMALL LETTER L",
     "LATIN SUBSCRIPT SMALL LETTER M", "LATIN SUBSCRIPT SMALL LETTER N",
     "LATIN SUBSCRIPT SMALL LETTER P", "LATIN SUBSCRIPT SMALL LETTER S",
     "LATIN SUBSCRIPT SMALL LETTER T"]⟩,
   ⟨0x20a0, 1, "", ["EURO-CURRENCY SIGN", "COLON SIGN", "CRUZEIRO SIGN", "FRENCH FRANC SIGN",
     "LIRA SIGN", "MILL SIGN", "NAIRA SIGN", "PESETA SIGN", "RUPEE SIGN", "WON SIGN",
     "NEW SHEQEL SIGN", "DONG SIGN", "EURO SIGN", "KIP SIGN", "TUGRIK SIGN", "DRACHMA SIGN",
     "GERMAN PENNY SIGN", "PESO SIGN", "GUARANI SIGN", "AUSTRAL SIGN", "HRYVNIA SIGN", "CEDI SIGN",
     "LIVRE TOURNOIS SIGN", "SPESMILO SIGN", "TENGE SIGN", "INDIAN RUPEE SIGN",
     "TURKISH LIRA SIGN", "NORDIC MARK SIGN", "MANAT SIGN", "RUBLE SIGN", "LARI SIGN",
     "BITCOIN SIGN", "SOM SIGN"]⟩,
   ⟨0x20d0, 1, "COMBINING ", ["LEFT HARPOON ABOVE", "RIGHT HARPOON ABOVE",
     "LONG VERTICAL LINE OVERLAY", "SHORT VERTICAL LINE OVERLAY", "ANTICLOCKWISE ARROW ABOVE",
     "CLOCKWISE ARROW ABOVE", "LEFT ARROW ABOVE", "RIGHT ARROW ABOVE", "RING OVERLAY",
     "CLOCKWISE RING OVERLAY", "ANTICLOCKWISE RING OVERLAY", "THREE DOTS ABOVE", "FOUR DOTS ABOVE",
     "ENCLOSING CIRCLE", "ENCLOSING SQUARE", "ENCLOSING DIAMOND", "ENCLOSING CIRCLE BACKSLASH",
     "LEFT RIGHT ARROW ABOVE", "ENCLOSING SCREEN", "ENCLOSING KEYCAP",
     "ENCLOSING UPWARD POINTING TRIANGLE", "REVERSE SOLIDUS OVERLAY",
     "DOUBLE VERTICAL STROKE OVERLAY", "ANNUITY SYMBOL", "TRIPLE UNDERDOT", "WIDE BRIDGE ABOVE",
     "LEFTWARDS ARROW OVERLAY", "LONG DOUBLE SOLIDUS OVERLAY",
     "RIGHTWARDS HARPOON WITH BARB DOWNWARDS", "LEFTWARDS HARPOON WITH BARB DOWNWARDS",
     "LEFT ARROW BELOW", "RIGHT ARROW BELOW", "ASTERISK ABOVE"]⟩,
   ⟨0x2100, 1, "", ["ACCOUNT OF", "ADDRESSED TO THE SUBJECT", "DOUBLE-STRUCK CAPITAL C",
     "DEGREE CELSIUS", "CENTRE LINE SYMBOL", "CARE OF", "CADA UNA", "EULER CONSTANT", "SCRUPLE",
     "DEGREE FAHRENHEIT", "SCRIPT SMALL G", "SCRIPT CAPITAL H", "BLACK-LETTER CAPITAL H",
     "DOUBLE-STRUCK CAPITAL H", "PLANCK CONSTANT", "PLANCK CONSTANT OVER TWO PI",
     "SCRIPT CAPITAL I", "BLACK-LETTER CAPITAL I", "SCRIPT CAPITAL L", "SCRIPT SMALL L",
     "L B BAR SYMBOL", "DOUBLE-STRUCK CAPITAL N", "NUMERO SIGN", "SOUND RECORDING COPYRIGHT",
     "SCRIPT CAPITAL P", "DOUBLE-STRUCK CAPITAL P", "DOUBLE-STRUCK CAPITAL Q", "SCRIPT CAPITAL R",
     "BLACK-LETTER CAPITAL R", "DOUBLE-STRUCK CAPITAL R", "PRESCRIPTION TAKE", "RESPONSE",
     "SERVICE MARK", "TELEPHONE SIGN", "TRADE MARK SIGN", "VERSICLE", "DOUBLE-STRUCK CAPITAL Z",
     "OUNCE SIGN", "OHM SIGN", "INVERTED OHM SIGN", "BLACK-LETTER CAPITAL Z",
     "TURNED GREEK SMALL LETTER IOTA", "KELVIN SIGN", "ANGSTROM SIGN", "SCRIPT CAPITAL B",
     "BLACK-LETTER CAPITAL C", "ESTIMATED SYMBOL", "SCRIPT SMALL E"]⟩,
   ⟨0x2130, 1, "", ["SCRIPT CAPITAL E", "SCRIPT CAPITAL F", "TURNED CAPITAL F", "SCRIPT CAPITAL M",
     "SCRIPT SMALL O", "ALEF SYMBOL", "BET SYMBOL", "GIMEL SYMBOL", "DALET SYMBOL",
     "INFORMATION SOURCE", "ROTATED CAPITAL Q", "FACSIMILE SIGN", "DOUBLE-STRUCK SMALL PI",
     "DOUBLE-STRUCK SMALL GAMMA", "DOUBLE-STRUCK CAPITAL GAMMA", "DOUBLE-STRUCK CAPITAL PI",
     "DOUBLE-STRUCK N-ARY SUMMATION", "TURNED SANS-SERIF CAPITAL G", "TURNED SANS-SERIF CAPITAL L",
     "REVERSED SANS-SERIF CAPITAL L", "TURNED SANS-SERIF CAPITAL Y",
     "DOUBLE-STRUCK ITALIC CAPITAL D", "DOUBLE-STRUCK ITALIC SMALL D",
     "DOUBLE-STRUCK ITALIC SMALL E", "DOUBLE-STRUCK ITALIC SMALL I",
     "DOUBLE-STRUCK ITALIC SMALL J", "PROPERTY LINE", "TURNED AMPERSAND", "PER SIGN",
     "AKTIESELSKAB", "TURNED SMALL F", "SYMBOL FOR SAMARITAN SOURCE",
     "VULGAR FRACTION ONE SEVENTH", "VULGAR FRACTION ONE NINTH", "VULGAR FRACTION ONE TENTH",
     "VULGAR FRACTION ONE THIRD", "VULGAR FRACTION TWO THIRDS", "VULGAR FRACTION ONE FIFTH",
     "VULGAR FRACTION TWO FIFTHS", "VULGAR FRACTION THREE FIFTHS", "VULGAR FRACTION FOUR FIFTHS",
     "VULGAR FRACTION ONE SIXTH", "VULGAR FRACTION FIVE SIXTHS", "VULGAR FRACTION ONE EIGHTH",
     "VULGAR FRACTION THREE EIGHTHS", "VULGAR FRACTION FIVE EIGHTHS",
     "VULGAR FRACTION SEVEN EIGHTHS", "FRACTION NUMERATOR ONE"]⟩,
   ⟨0x2160, 1, "", ["ROMAN NUMERAL ONE", "ROMAN NUMERAL TWO", "ROMAN NUMERAL THREE",
     "ROMAN NUMERAL FOUR", "ROMAN NUMERAL FIVE", "ROMAN NUMERAL SIX", "ROMAN NUMERAL SEVEN",
     "ROMAN NUMERAL EIGHT", "ROMAN NUMERAL NINE", "ROMAN NUMERAL TEN", "ROMAN NUMERAL ELEVEN",
     "ROMAN NUMERAL TWELVE", "ROMAN NUMERAL FIFTY", "ROMAN NUMERAL ONE HUNDRED",
     "ROMAN NUMERAL FIVE HUNDRED", "ROMAN NUMERAL ONE THOUSAND", "SMALL ROMAN NUMERAL ONE",
     "SMALL ROMAN NUMERAL TWO", "SMALL ROMAN NUMERAL THREE", "SMALL ROMAN NUMERAL FOUR",
     "SMALL ROMAN NUMERAL FIVE", "SMALL ROMAN NUMERAL SIX", "SMALL ROMAN NUMERAL SEVEN",
     "SMALL ROMAN NUMERAL EIGHT", "SMALL ROMAN NUMERAL NINE", "SMALL ROMAN NUMERAL TEN",
     "SMALL ROMAN NUMERAL ELEVEN", "SMALL ROMAN NUMERAL TWELVE", "SMALL ROMAN NUMERAL FIFTY",
     "SMALL ROMAN NUMERAL ONE HUNDRED", "SMALL ROMAN NUMERAL FIVE HUNDRED",
     "SMALL ROMAN NUMERAL ONE THOUSAND", "ROMAN NUMERAL ONE THOUSAND C D",
     "ROMAN NUMERAL FIVE THOUSAND", "ROMAN NUMERAL TEN THOUSAND",
     "ROMAN NUMERAL REVERSED ONE HUNDRED"]⟩,
   ⟨0x2184, 1, "LATIN SMALL LETTER ", ["REVERSED C"]⟩,
   ⟨0x2185, 1, "", ["ROMAN NUMERAL SIX LATE FORM", "ROMAN NUMERAL FIFTY EARLY FORM",
     "ROMAN NUMERAL FIFTY THOUSAND", "ROMAN NUMERAL ONE HUNDRED THOUSAND",
     "VULGAR FRACTION ZERO THIRDS", "TURNED DIGIT TWO", "TURNED DIGIT THREE"]⟩,
   ⟨0x2190, 1, "", ["LEFTWARDS ARROW", "UPWARDS ARROW", "RIGHTWARDS ARROW", "DOWNWARDS ARROW",
     "LEFT RIGHT ARROW", "UP DOWN ARROW", "NORTH WEST ARROW", "NORTH EAST ARROW",
     "SOUTH EAST ARROW", "SOUTH WEST ARROW", "LEFTWARDS ARROW WITH STROKE",
     "RIGHTWARDS ARROW WITH STROKE", "LEFTWARDS WAVE ARROW", "RIGHTWARDS WAVE ARROW",
     "LEFTWARDS TWO HEADED ARROW", "UPWARDS TWO HEADED ARROW", "RIGHTWARDS TWO HEADED ARROW",
     "DOWNWARDS TWO HEADED ARROW", "LEFTWARDS ARROW WITH TAIL", "RIGHTWARDS ARROW WITH TAIL",
     "LEFTWARDS ARROW FROM BAR", "UPWARDS ARROW FROM BAR", "RIGHTWARDS ARROW FROM BAR",
     "DOWNWARDS ARROW FROM BAR", "UP DOWN ARROW WITH BASE", "LEFTWARDS ARROW WITH HOOK",
     "RIGHTWARDS ARROW WITH HOOK", "LEFTWARDS ARROW WITH LOOP", "RIGHTWARDS ARROW WITH LOOP",
     "LEFT RIGHT WAVE ARROW", "LEFT RIGHT ARROW WITH STROKE", "DOWNWARDS ZIGZAG ARROW",
     "UPWARDS ARROW WITH TIP LEFTWARDS", "UPWARDS ARROW WITH TIP RIGHTWARDS",
     "DOWNWARDS ARROW WITH TIP LEFTWARDS", "DOWNWARDS ARROW WITH TIP RIGHTWARDS",
     "RIGHTWARDS ARROW WITH CORNER DOWNWARDS", "DOWNWARDS ARROW WITH CORNER LEFTWARDS",
     "ANTICLOCKWISE TOP SEMICIRCLE ARROW", "CLOCKWISE TOP SEMICIRCLE ARROW",
     "NORTH WEST ARROW TO LONG BAR", "LEFTWARDS ARROW TO BAR OVER RIGHTWARDS ARROW TO BAR",
     "ANTICLOCKWISE OPEN CIRCLE ARROW", "CLOCKWISE OPEN CIRCLE ARROW",
     "LEFTWARDS HARPOON WITH BARB UPWARDS", "LEFTWARDS HARPOON WITH BARB DOWNWARDS",
     "UPWARDS HARPOON WITH BARB RIGHTWARDS", "UPWARDS HARPOON WITH BARB LEFTWARDS"]⟩,
   ⟨0x21c0, 1, "", ["RIGHTWARDS HARPOON WITH BARB UPWARDS",
     "RIGHTWARDS HARPOON WITH BARB DOWNWARDS", "DOWNWARDS HARPOON WITH BARB RIGHTWARDS",
     "DOWNWARDS HARPOON WITH BARB LEFTWARDS", "RIGHTWARDS ARROW OVER LEFTWARDS ARROW",
     "UPWARDS ARROW LEFTWARDS OF DOWNWARDS ARROW", "LEFTWARDS ARROW OVER RIGHTWARDS ARROW",
     "LEFTWARDS PAIRED ARROWS", "UPWARDS PAIRED ARROWS", "RIGHTWARDS PAIRED ARROWS",
     "DOWNWARDS PAIRED ARROWS", "LEFTWARDS HARPOON OVER RIGHTWARDS HARPOON",
     "RIGHTWARDS HARPOON OVER LEFTWARDS HARPOON", "LEFTWARDS DOUBLE ARROW WITH STROKE",
     "LEFT RIGHT DOUBLE ARROW WITH STROKE", "RIGHTWARDS DOUBLE ARROW WITH STROKE",
     "LEFTWARDS DOUBLE ARROW", "UPWARDS DOUBLE ARROW", "RIGHTWARDS DOUBLE ARROW",
     "DOWNWARDS DOUBLE ARROW", "LEFT RIGHT DOUBLE ARROW", "UP DOWN DOUBLE ARROW",
     "NORTH WEST DOUBLE ARROW", "NORTH EAST DOUBLE ARROW", "SOUTH EAST DOUBLE ARROW",
     "SOUTH WEST DOUBLE ARROW", "LEFTWARDS TRIPLE ARROW", "RIGHTWARDS TRIPLE ARROW",
     "LEFTWARDS SQUIGGLE ARROW", "RIGHTWARDS SQUIGGLE ARROW", "UPWARDS ARROW WITH DOUBLE STROKE",
     "DOWNWARDS ARROW WITH DOUBLE STROKE", "LEFTWARDS DASHED ARROW", "UPWARDS DASHED ARROW",
     "RIGHTWARDS DASHED ARROW", "DOWNWARDS DASHED ARROW", "LEFTWARDS ARROW TO BAR",
     "RIGHTWARDS ARROW TO BAR", "LEFTWARDS WHITE ARROW", "UPWARDS WHITE ARROW",
     "RIGHTWARDS WHITE ARROW", "DOWNWARDS WHITE ARROW", "UPWARDS WHITE ARROW FROM BAR",
     "UPWARDS WHITE ARROW ON PEDESTAL", "UPWARDS WHITE ARROW ON PEDESTAL WITH HORIZONTAL BAR",
     "UPWARDS WHITE ARROW ON PEDESTAL WITH VERTICAL BAR", "UPWARDS WHITE DOUBLE ARROW",
     "UPWARDS WHITE DOUBLE ARROW ON PEDESTAL"]⟩,
   ⟨0x21f0, 1, "", ["RIGHTWARDS WHITE ARROW FROM WALL", "NORTH WEST ARROW TO CORNER",
     "SOUTH EAST ARROW TO CORNER", "UP DOWN WHITE ARROW", "RIGHT ARROW WITH SMALL CIRCLE",
     "DOWNWARDS ARROW LEFTWARDS OF UPWARDS ARROW", "THREE RIGHTWARDS ARROWS",
     "LEFTWARDS ARROW WITH VERTICAL STROKE", "RIGHTWARDS ARROW WITH VERTICAL STROKE",
     "LEFT RIGHT ARROW WITH VERTICAL STROKE", "LEFTWARDS ARROW WITH DOUBLE VERTICAL STROKE",
     "RIGHTWARDS ARROW WITH DOUBLE VERTICAL STROKE",
     "LEFT RIGHT ARROW WITH DOUBLE VERTICAL STROKE", "LEFTWARDS OPEN-HEADED ARROW",
     "RIGHTWARDS OPEN-HEADED ARROW", "LEFT RIGHT OPEN-HEADED ARROW", "FOR ALL", "COMPLEMENT",
     "PARTIAL DIFFERENTIAL", "THERE EXISTS", "THERE DOES NOT EXIST", "EMPTY SET", "INCREMENT",
     "NABLA", "ELEMENT OF", "NOT AN ELEMENT OF", "SMALL ELEMENT OF", "CONTAINS AS MEMBER",
     "DOES NOT CONTAIN AS MEMBER", "SMALL CONTAINS AS MEMBER", "END OF PROOF", "N-ARY PRODUCT",
     "N-ARY COPRODUCT", "N-ARY SUMMATION", "MINUS SIGN", "MINUS-OR-PLUS SIGN", "DOT PLUS",
     "DIVISION SLASH", "SET MINUS", "ASTERISK OPERATOR", "RING OPERATOR", "BULLET OPERATOR",
     "SQUARE ROOT", "CUBE ROOT", "FOURTH ROOT", "PROPORTIONAL TO", "INFINITY", "RIGHT ANGLE"]⟩,
   ⟨0x2220, 1, "", ["ANGLE", "MEASURED ANGLE", "SPHERICAL ANGLE", "DIVIDES", "DOES NOT DIVIDE",
     "PARALLEL TO", "NOT PARALLEL TO", "LOGICAL AND", "LOGICAL OR", "INTERSECTION", "UNION",
     "INTEGRAL", "DOUBLE INTEGRAL", "TRIPLE INTEGRAL", "CONTOUR INTEGRAL", "SURFACE INTEGRAL",
     "VOLUME INTEGRAL", "CLOCKWISE INTEGRAL", "CLOCKWISE CONTOUR INTEGRAL",
     "ANTICLOCKWISE CONTOUR INTEGRAL", "THEREFORE", "BECAUSE", "RATIO", "PROPORTION", "DOT MINUS",
     "EXCESS", "GEOMETRIC PROPORTION", "HOMOTHETIC", "TILDE OPERATOR", "REVERSED TILDE",
     "INVERTED LAZY S", "SINE WAVE", "WREATH PRODUCT", "NOT TILDE", "MINUS TILDE",
     "ASYMPTOTICALLY EQUAL TO", "NOT ASYMPTOTICALLY EQUAL TO", "APPROXIMATELY EQUAL TO",
     "APPROXIMATELY BUT NOT ACTUALLY EQUAL TO", "NEITHER APPROXIMATELY NOR ACTUALLY EQUAL TO",
     "ALMOST EQUAL TO", "NOT ALMOST EQUAL TO", "ALMOST EQUAL OR EQUAL TO", "TRIPLE TILDE",
     "ALL EQUAL TO", "EQUIVALENT TO", "GEOMETRICALLY EQUIVALENT TO", "DIFFERENCE BETWEEN"]⟩,
   ⟨0x2250, 1, "", ["APPROACHES THE LIMIT", "GEOMETRICALLY EQUAL TO",
     "APPROXIMATELY EQUAL TO OR THE IMAGE OF", "IMAGE OF OR APPROXIMATELY EQUAL TO",
     "COLON EQUALS", "EQUALS COLON", "RING IN EQUAL TO", "RING EQUAL TO", "CORRESPONDS TO",
     "ESTIMATES", "EQUIANGULAR TO", "STAR EQUALS", "DELTA EQUAL TO", "EQUAL TO BY DEFINITION",
     "MEASURED BY", "QUESTIONED EQUAL TO", "NOT EQUAL TO", "IDENTICAL TO", "NOT IDENTICAL TO",
     "STRICTLY EQUIVALENT TO", "LESS-THAN OR EQUAL TO", "GREATER-THAN OR EQUAL TO",
     "LESS-THAN OVER EQUAL TO", "GREATER-THAN OVER EQUAL TO", "LESS-THAN BUT NOT EQUAL TO",
     "GREATER-THAN BUT NOT EQUAL TO", "MUCH LESS-THAN", "MUCH GREATER-THAN", "BETWEEN",
     "NOT EQUIVALENT TO", "NOT LESS-THAN", "NOT GREATER-THAN", "NEITHER LESS-THAN NOR EQUAL TO",
     "NEITHER GREATER-THAN NOR EQUAL TO", "LESS-THAN OR EQUIVALENT TO",
     "GREATER-THAN OR EQUIVALENT TO", "NEITHER LESS-THAN NOR EQUIVALENT TO",
     "NEITHER GREATER-THAN NOR EQUIVALENT TO", "LESS-THAN OR GREATER-THAN",
     "GREATER-THAN OR LESS-THAN", "NEITHER LESS-THAN NOR GREATER-THAN",
     "NEITHER GREATER-THAN NOR LESS-THAN", "PRECEDES", "SUCCEEDS", "PRECEDES OR EQUAL TO",
     "SUCCEEDS OR EQUAL TO", "PRECEDES OR EQUIVALENT TO", "SUCCEEDS OR EQUIVALENT TO"]⟩,
   ⟨0x2280, 1, "", ["DOES NOT PRECEDE", "DOES NOT SUCCEED", "SUBSET OF", "SUPERSET OF",
     "NOT A SUBSET OF", "NOT A SUPERSET OF", "SUBSET OF OR EQUAL TO", "SUPERSET OF OR EQUAL TO",
     "NEITHER A SUBSET OF NOR EQUAL TO", "NEITHER A SUPERSET OF NOR EQUAL TO",
     "SUBSET OF WITH NOT EQUAL TO", "SUPERSET OF WITH NOT EQUAL TO", "MULTISET",
     "MULTISET MULTIPLICATION", "MULTISET UNION", "SQUARE IMAGE OF", "SQUARE ORIGINAL OF",
     "SQUARE IMAGE OF OR EQUAL TO", "SQUARE ORIGINAL OF OR EQUAL TO", "SQUARE CAP", "SQUARE CUP",
     "CIRCLED PLUS", "CIRCLED MINUS", "CIRCLED TIMES", "CIRCLED DIVISION SLASH",
     "CIRCLED DOT OPERATOR", "CIRCLED RING OPERATOR", "CIRCLED ASTERISK OPERATOR",
     "CIRCLED EQUALS", "CIRCLED DASH", "SQUARED PLUS", "SQUARED MINUS", "SQUARED TIMES",
     "SQUARED DOT OPERATOR", "RIGHT TACK", "LEFT TACK", "DOWN TACK", "UP TACK", "ASSERTION",
     "MODELS", "TRUE", "FORCES", "TRIPLE VERTICAL BAR RIGHT TURNSTILE",
     "DOUBLE VERTICAL BAR DOUBLE RIGHT TURNSTILE", "DOES NOT PROVE", "NOT TRUE", "DOES NOT FORCE",
     "NEGATED DOUBLE VERTICAL BAR DOUBLE RIGHT TURNSTILE"]⟩,
   ⟨0x22b0, 1, "", ["PRECEDES UNDER RELATION", "SUCCEEDS UNDER RELATION", "NORMAL SUBGROUP OF",
     "CONTAINS AS NORMAL SUBGROUP", "NORMAL SUBGROUP OF OR EQUAL TO",
     "CONTAINS AS NORMAL SUBGROUP OR EQUAL TO", "ORIGINAL OF", "IMAGE OF", "MULTIMAP",
     "HERMITIAN CONJUGATE MATRIX", "INTERCALATE", "XOR", "NAND", "NOR", "RIGHT ANGLE WITH ARC",
     "RIGHT TRIANGLE", "N-ARY LOGICAL AND", "N-ARY LOGICAL OR", "N-ARY INTERSECTION",
     "N-ARY UNION", "DIAMOND OPERATOR", "DOT OPERATOR", "STAR OPERATOR", "DIVISION TIMES",
     "BOWTIE", "LEFT NORMAL FACTOR SEMIDIRECT PRODUCT", "RIGHT NORMAL FACTOR SEMIDIRECT PRODUCT",
     "LEFT SEMIDIRECT PRODUCT", "RIGHT SEMIDIRECT PRODUCT", "REVERSED TILDE EQUALS",
     "CURLY LOGICAL OR", "CURLY LOGICAL AND", "DOUBLE SUBSET", "DOUBLE SUPERSET",
     "DOUBLE INTERSECTION", "DOUBLE UNION", "PITCHFORK", "EQUAL AND PARALLEL TO",
     "LESS-THAN WITH DOT", "GREATER-THAN WITH DOT", "VERY MUCH LESS-THAN",
     "VERY MUCH GREATER-THAN", "LESS-THAN EQUAL TO OR GREATER-THAN",
     "GREATER-THAN EQUAL TO OR LESS-THAN", "EQUAL TO OR LESS-THAN", "EQUAL TO OR GREATER-THAN",
     "EQUAL TO OR PRECEDES", "EQUAL TO OR SUCCEEDS"]⟩,
   ⟨0x22e0, 1, "", ["DOES NOT PRECEDE OR EQUAL", "DOES NOT SUCCEED OR EQUAL",
     "NOT SQUARE IMAGE OF OR EQUAL TO", "NOT SQUARE ORIGINAL OF OR EQUAL TO",
     "SQUARE IMAGE OF OR NOT EQUAL TO", "SQUARE ORIGINAL OF OR NOT EQUAL TO",
     "LESS-THAN BUT NOT EQUIVALENT TO", "GREATER-THAN BUT NOT EQUIVALENT TO",
     "PRECEDES BUT NOT EQUIVALENT TO", "SUCCEEDS BUT NOT EQUIVALENT TO", "NOT NORMAL SUBGROUP OF",
     "DOES NOT CONTAIN AS NORMAL SUBGROUP", "NOT NORMAL SUBGROUP OF OR EQUAL TO",
     "DOES NOT CONTAIN AS NORMAL SUBGROUP OR EQUAL", "VERTICAL ELLIPSIS",
     "MIDLINE HORIZONTAL ELLIPSIS", "UP RIGHT DIAGONAL ELLIPSIS", "DOWN RIGHT DIAGONAL ELLIPSIS",
     "ELEMENT OF WITH LONG HORIZONTAL STROKE",
     "ELEMENT OF WITH VERTICAL BAR AT END OF HORIZONTAL STROKE",
     "SMALL ELEMENT OF WITH VERTICAL BAR AT END OF HORIZONTAL STROKE", "ELEMENT OF WITH DOT ABOVE",
     "ELEMENT OF WITH OVERBAR", "SMALL ELEMENT OF WITH OVERBAR", "ELEMENT OF WITH UNDERBAR",
     "ELEMENT OF WITH TWO HORIZONTAL STROKES", "CONTAINS WITH LONG HORIZONTAL STROKE",
     "CONTAINS WITH VERTICAL BAR AT END OF HORIZONTAL STROKE",
     "SMALL CONTAINS WITH VERTICAL BAR AT END OF HORIZONTAL STROKE", "CONTAINS WITH OVERBAR",
     "SMALL CONTAINS WITH OVERBAR", "Z NOTATION BAG MEMBERSHIP"]⟩]

/-- The names of characters that have no name of their own, or another one. -/
def nameAliases : List (Nat × List String) :=
  [(0x00, ["NULL", "NUL"]), (0x01, ["START OF HEADING", "SOH"]), (0x02, ["START OF TEXT", "STX"]),
   (0x03, ["END OF TEXT", "ETX"]), (0x04, ["END OF TRANSMISSION", "EOT"]),
   (0x05, ["ENQUIRY", "ENQ"]), (0x06, ["ACKNOWLEDGE", "ACK"]), (0x07, ["ALERT", "BEL"]),
   (0x08, ["BACKSPACE", "BS"]),
   (0x09, ["CHARACTER TABULATION", "HORIZONTAL TABULATION", "HT", "TAB"]),
   (0x0a, ["LINE FEED", "NEW LINE", "END OF LINE", "LF", "NL", "EOL"]),
   (0x0b, ["LINE TABULATION", "VERTICAL TABULATION", "VT"]), (0x0c, ["FORM FEED", "FF"]),
   (0x0d, ["CARRIAGE RETURN", "CR"]), (0x0e, ["SHIFT OUT", "LOCKING-SHIFT ONE", "SO"]),
   (0x0f, ["SHIFT IN", "LOCKING-SHIFT ZERO", "SI"]), (0x10, ["DATA LINK ESCAPE", "DLE"]),
   (0x11, ["DEVICE CONTROL ONE", "DC1"]), (0x12, ["DEVICE CONTROL TWO", "DC2"]),
   (0x13, ["DEVICE CONTROL THREE", "DC3"]), (0x14, ["DEVICE CONTROL FOUR", "DC4"]),
   (0x15, ["NEGATIVE ACKNOWLEDGE", "NAK"]), (0x16, ["SYNCHRONOUS IDLE", "SYN"]),
   (0x17, ["END OF TRANSMISSION BLOCK", "ETB"]), (0x18, ["CANCEL", "CAN"]),
   (0x19, ["END OF MEDIUM", "EOM"]), (0x1a, ["SUBSTITUTE", "SUB"]), (0x1b, ["ESCAPE", "ESC"]),
   (0x1c, ["INFORMATION SEPARATOR FOUR", "FILE SEPARATOR", "FS"]),
   (0x1d, ["INFORMATION SEPARATOR THREE", "GROUP SEPARATOR", "GS"]),
   (0x1e, ["INFORMATION SEPARATOR TWO", "RECORD SEPARATOR", "RS"]),
   (0x1f, ["INFORMATION SEPARATOR ONE", "UNIT SEPARATOR", "US"]), (0x20, ["SP"]),
   (0x7f, ["DELETE", "DEL"]), (0x85, ["NEXT LINE", "NEL"]), (0xa0, ["NBSP"]), (0xad, ["SHY"]),
   (0x200b, ["ZWSP"]), (0x200c, ["ZWNJ"]), (0x200d, ["ZWJ"]), (0x200e, ["LRM"]), (0x200f, ["RLM"]),
   (0x202f, ["NNBSP"]), (0x205f, ["MMSP"]), (0x2060, ["WJ"]),
   (0xfeff, ["ZERO WIDTH NO-BREAK SPACE", "BYTE ORDER MARK", "BOM", "ZWNBSP"])]

/-- Characters from `first` to `last`, named by their number in base sixteen. -/
structure NumberedRun where
  first : Nat
  last : Nat

/-- The ideographs common to the writing systems of East Asia. -/
def ideographRuns : List NumberedRun :=
  [⟨0x3400, 0x4dbf⟩, ⟨0x4e00, 0x9fff⟩, ⟨0x20000, 0x2a6df⟩, ⟨0x2a700, 0x2b738⟩, ⟨0x2b740, 0x2b81d⟩,
   ⟨0x2b820, 0x2cea1⟩, ⟨0x2ceb0, 0x2ebe0⟩, ⟨0x30000, 0x3134a⟩]

/-- Other characters named by their number, with what comes before it. -/
def numberedRuns : List (String × List NumberedRun) :=
  [("CJK COMPATIBILITY IDEOGRAPH-", [⟨0xf900, 0xfa6d⟩, ⟨0xfa70, 0xfad9⟩, ⟨0x2f800, 0x2fa1d⟩]),
   ("KHITAN SMALL SCRIPT CHARACTER-", [⟨0x18b00, 0x18cd5⟩]),
   ("NUSHU CHARACTER-", [⟨0x1b170, 0x1b2fb⟩])]

/-- The first, middle and last parts of the names of Korean syllables. -/
def syllableParts : List String × List String × List String :=
  (["G", "GG", "N", "D", "DD", "R", "M", "B", "BB", "S", "SS", "", "J", "JJ", "C", "K", "T", "P",
    "H"],
   ["A", "AE", "YA", "YAE", "EO", "E", "YEO", "YE", "O", "WA", "WAE", "OE", "YO", "U", "WEO", "WE",
    "WI", "YU", "EU", "YI", "I"],
   ["", "G", "GG", "GS", "N", "NJ", "NH", "D", "L", "LG", "LM", "LB", "LS", "LT", "LP", "LH", "M",
    "B", "BS", "S", "SS", "NG", "J", "C", "K", "T", "P", "H"])

end Conform.Text
