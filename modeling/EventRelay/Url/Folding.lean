namespace EventRelay.Domain

/-!
# Folding

Characters of a domain name that stand for others: capital letters for small
ones, and the wide, narrow, raised, circled or joined forms of letters and
digits for the plain ones.  The tables cover the Latin, Greek, Cyrillic and
Armenian letters and the forms of these letters and of digits; characters of
other scripts stand for themselves.
-/

/--
Characters at equal distances that stand for as many others at the same
distances.
-/
structure Fold where
  first : Nat
  last : Nat
  stride : Nat
  /-- What the first of them stands for. -/
  image : Nat
  deriving Repr, DecidableEq

namespace Fold

/-- What a character stands for, if it is one of them. -/
def image? (fold : Fold) (value : Nat) : Option Nat :=
  if fold.first ≤ value ∧ value ≤ fold.last ∧
      (value - fold.first) % fold.stride = 0 then
    some (fold.image + (value - fold.first))
  else
    none

end Fold

/-- The characters that stand for one other character. -/
def folds : List Fold :=
  [⟨0x41, 0x5A, 1, 0x61⟩, ⟨0xA0, 0xA0, 1, 0x20⟩, ⟨0xAA, 0xAA, 1, 0x61⟩,
    ⟨0xB2, 0xB3, 1, 0x32⟩, ⟨0xB5, 0xB5, 1, 0x3BC⟩, ⟨0xB9, 0xB9, 1, 0x31⟩,
    ⟨0xBA, 0xBA, 1, 0x6F⟩, ⟨0xC0, 0xD6, 1, 0xE0⟩, ⟨0xD8, 0xDE, 1, 0xF8⟩,
    ⟨0x100, 0x12E, 2, 0x101⟩, ⟨0x134, 0x136, 2, 0x135⟩,
    ⟨0x139, 0x13D, 2, 0x13A⟩, ⟨0x141, 0x147, 2, 0x142⟩,
    ⟨0x14A, 0x176, 2, 0x14B⟩, ⟨0x178, 0x178, 1, 0xFF⟩,
    ⟨0x179, 0x17D, 2, 0x17A⟩, ⟨0x17F, 0x17F, 1, 0x73⟩,
    ⟨0x181, 0x181, 1, 0x253⟩, ⟨0x182, 0x184, 2, 0x183⟩,
    ⟨0x186, 0x186, 1, 0x254⟩, ⟨0x187, 0x187, 1, 0x188⟩,
    ⟨0x189, 0x18A, 1, 0x256⟩, ⟨0x18B, 0x18B, 1, 0x18C⟩,
    ⟨0x18E, 0x18E, 1, 0x1DD⟩, ⟨0x18F, 0x18F, 1, 0x259⟩,
    ⟨0x190, 0x190, 1, 0x25B⟩, ⟨0x191, 0x191, 1, 0x192⟩,
    ⟨0x193, 0x193, 1, 0x260⟩, ⟨0x194, 0x194, 1, 0x263⟩,
    ⟨0x196, 0x196, 1, 0x269⟩, ⟨0x197, 0x197, 1, 0x268⟩,
    ⟨0x198, 0x198, 1, 0x199⟩, ⟨0x19C, 0x19C, 1, 0x26F⟩,
    ⟨0x19D, 0x19D, 1, 0x272⟩, ⟨0x19F, 0x19F, 1, 0x275⟩,
    ⟨0x1A0, 0x1A4, 2, 0x1A1⟩, ⟨0x1A6, 0x1A6, 1, 0x280⟩,
    ⟨0x1A7, 0x1A7, 1, 0x1A8⟩, ⟨0x1A9, 0x1A9, 1, 0x283⟩,
    ⟨0x1AC, 0x1AC, 1, 0x1AD⟩, ⟨0x1AE, 0x1AE, 1, 0x288⟩,
    ⟨0x1AF, 0x1AF, 1, 0x1B0⟩, ⟨0x1B1, 0x1B2, 1, 0x28A⟩,
    ⟨0x1B3, 0x1B5, 2, 0x1B4⟩, ⟨0x1B7, 0x1B7, 1, 0x292⟩,
    ⟨0x1B8, 0x1B8, 1, 0x1B9⟩, ⟨0x1BC, 0x1BC, 1, 0x1BD⟩,
    ⟨0x1CD, 0x1DB, 2, 0x1CE⟩, ⟨0x1DE, 0x1EE, 2, 0x1DF⟩,
    ⟨0x1F4, 0x1F4, 1, 0x1F5⟩, ⟨0x1F6, 0x1F6, 1, 0x195⟩,
    ⟨0x1F7, 0x1F7, 1, 0x1BF⟩, ⟨0x1F8, 0x21E, 2, 0x1F9⟩,
    ⟨0x220, 0x220, 1, 0x19E⟩, ⟨0x222, 0x232, 2, 0x223⟩,
    ⟨0x23A, 0x23A, 1, 0x2C65⟩, ⟨0x23B, 0x23B, 1, 0x23C⟩,
    ⟨0x23D, 0x23D, 1, 0x19A⟩, ⟨0x23E, 0x23E, 1, 0x2C66⟩,
    ⟨0x241, 0x241, 1, 0x242⟩, ⟨0x243, 0x243, 1, 0x180⟩,
    ⟨0x244, 0x244, 1, 0x289⟩, ⟨0x245, 0x245, 1, 0x28C⟩,
    ⟨0x246, 0x24E, 2, 0x247⟩, ⟨0x370, 0x372, 2, 0x371⟩,
    ⟨0x374, 0x374, 1, 0x2B9⟩, ⟨0x376, 0x376, 1, 0x377⟩,
    ⟨0x37E, 0x37E, 1, 0x3B⟩, ⟨0x37F, 0x37F, 1, 0x3F3⟩,
    ⟨0x386, 0x386, 1, 0x3AC⟩, ⟨0x387, 0x387, 1, 0xB7⟩,
    ⟨0x388, 0x38A, 1, 0x3AD⟩, ⟨0x38C, 0x38C, 1, 0x3CC⟩,
    ⟨0x38E, 0x38F, 1, 0x3CD⟩, ⟨0x391, 0x3A1, 1, 0x3B1⟩,
    ⟨0x3A3, 0x3AB, 1, 0x3C3⟩, ⟨0x3CF, 0x3CF, 1, 0x3D7⟩,
    ⟨0x3D0, 0x3D0, 1, 0x3B2⟩, ⟨0x3D1, 0x3D1, 1, 0x3B8⟩,
    ⟨0x3D2, 0x3D2, 1, 0x3C5⟩, ⟨0x3D3, 0x3D3, 1, 0x3CD⟩,
    ⟨0x3D4, 0x3D4, 1, 0x3CB⟩, ⟨0x3D5, 0x3D5, 1, 0x3C6⟩,
    ⟨0x3D6, 0x3D6, 1, 0x3C0⟩, ⟨0x3D8, 0x3EE, 2, 0x3D9⟩,
    ⟨0x3F0, 0x3F0, 1, 0x3BA⟩, ⟨0x3F1, 0x3F2, 1, 0x3C1⟩,
    ⟨0x3F4, 0x3F4, 1, 0x3B8⟩, ⟨0x3F5, 0x3F5, 1, 0x3B5⟩,
    ⟨0x3F7, 0x3F7, 1, 0x3F8⟩, ⟨0x3F9, 0x3F9, 1, 0x3C2⟩,
    ⟨0x3FA, 0x3FA, 1, 0x3FB⟩, ⟨0x3FD, 0x3FF, 1, 0x37B⟩,
    ⟨0x400, 0x40F, 1, 0x450⟩, ⟨0x410, 0x42F, 1, 0x430⟩,
    ⟨0x460, 0x480, 2, 0x461⟩, ⟨0x48A, 0x4BE, 2, 0x48B⟩,
    ⟨0x4C0, 0x4C0, 1, 0x4CF⟩, ⟨0x4C1, 0x4CD, 2, 0x4C2⟩,
    ⟨0x4D0, 0x52E, 2, 0x4D1⟩, ⟨0x531, 0x556, 1, 0x561⟩,
    ⟨0x1E00, 0x1E94, 2, 0x1E01⟩, ⟨0x1E9B, 0x1E9B, 1, 0x1E61⟩,
    ⟨0x1E9E, 0x1E9E, 1, 0xDF⟩, ⟨0x1EA0, 0x1EFE, 2, 0x1EA1⟩,
    ⟨0x2070, 0x2070, 1, 0x30⟩, ⟨0x2071, 0x2071, 1, 0x69⟩,
    ⟨0x2074, 0x2079, 1, 0x34⟩, ⟨0x207A, 0x207A, 1, 0x2B⟩,
    ⟨0x207B, 0x207B, 1, 0x2212⟩, ⟨0x207C, 0x207C, 1, 0x3D⟩,
    ⟨0x207D, 0x207E, 1, 0x28⟩, ⟨0x207F, 0x207F, 1, 0x6E⟩,
    ⟨0x2080, 0x2089, 1, 0x30⟩, ⟨0x208A, 0x208A, 1, 0x2B⟩,
    ⟨0x208B, 0x208B, 1, 0x2212⟩, ⟨0x208C, 0x208C, 1, 0x3D⟩,
    ⟨0x208D, 0x208E, 1, 0x28⟩, ⟨0x2090, 0x2090, 1, 0x61⟩,
    ⟨0x2091, 0x2091, 1, 0x65⟩, ⟨0x2092, 0x2092, 1, 0x6F⟩,
    ⟨0x2093, 0x2093, 1, 0x78⟩, ⟨0x2094, 0x2094, 1, 0x259⟩,
    ⟨0x2095, 0x2095, 1, 0x68⟩, ⟨0x2096, 0x2099, 1, 0x6B⟩,
    ⟨0x209A, 0x209A, 1, 0x70⟩, ⟨0x209B, 0x209C, 1, 0x73⟩,
    ⟨0x2102, 0x2102, 1, 0x63⟩, ⟨0x2107, 0x2107, 1, 0x25B⟩,
    ⟨0x210A, 0x210B, 1, 0x67⟩, ⟨0x210C, 0x210C, 1, 0x68⟩,
    ⟨0x210D, 0x210D, 1, 0x68⟩, ⟨0x210E, 0x210E, 1, 0x68⟩,
    ⟨0x210F, 0x210F, 1, 0x127⟩, ⟨0x2110, 0x2110, 1, 0x69⟩,
    ⟨0x2111, 0x2111, 1, 0x69⟩, ⟨0x2112, 0x2112, 1, 0x6C⟩,
    ⟨0x2113, 0x2115, 2, 0x6C⟩, ⟨0x2119, 0x211B, 1, 0x70⟩,
    ⟨0x211C, 0x211C, 1, 0x72⟩, ⟨0x211D, 0x211D, 1, 0x72⟩,
    ⟨0x2124, 0x2124, 1, 0x7A⟩, ⟨0x2126, 0x2126, 1, 0x3C9⟩,
    ⟨0x2128, 0x2128, 1, 0x7A⟩, ⟨0x212A, 0x212A, 1, 0x6B⟩,
    ⟨0x212B, 0x212B, 1, 0xE5⟩, ⟨0x212C, 0x212D, 1, 0x62⟩,
    ⟨0x212F, 0x212F, 1, 0x65⟩, ⟨0x2130, 0x2131, 1, 0x65⟩,
    ⟨0x2132, 0x2132, 1, 0x214E⟩, ⟨0x2133, 0x2133, 1, 0x6D⟩,
    ⟨0x2134, 0x2134, 1, 0x6F⟩, ⟨0x2135, 0x2138, 1, 0x5D0⟩,
    ⟨0x2139, 0x2139, 1, 0x69⟩, ⟨0x213C, 0x213C, 1, 0x3C0⟩,
    ⟨0x213D, 0x213D, 1, 0x3B3⟩, ⟨0x213E, 0x213E, 1, 0x3B3⟩,
    ⟨0x213F, 0x213F, 1, 0x3C0⟩, ⟨0x2140, 0x2140, 1, 0x2211⟩,
    ⟨0x2145, 0x2145, 1, 0x64⟩, ⟨0x2146, 0x2147, 1, 0x64⟩,
    ⟨0x2148, 0x2149, 1, 0x69⟩, ⟨0x2160, 0x2160, 1, 0x69⟩,
    ⟨0x2164, 0x2164, 1, 0x76⟩, ⟨0x2169, 0x2169, 1, 0x78⟩,
    ⟨0x216C, 0x216C, 1, 0x6C⟩, ⟨0x216D, 0x216E, 1, 0x63⟩,
    ⟨0x216F, 0x216F, 1, 0x6D⟩, ⟨0x2170, 0x2170, 1, 0x69⟩,
    ⟨0x2174, 0x2174, 1, 0x76⟩, ⟨0x2179, 0x2179, 1, 0x78⟩,
    ⟨0x217C, 0x217C, 1, 0x6C⟩, ⟨0x217D, 0x217E, 1, 0x63⟩,
    ⟨0x217F, 0x217F, 1, 0x6D⟩, ⟨0x2183, 0x2183, 1, 0x2184⟩,
    ⟨0x2460, 0x2468, 1, 0x31⟩, ⟨0x24B6, 0x24CF, 1, 0x61⟩,
    ⟨0x24D0, 0x24E9, 1, 0x61⟩, ⟨0x24EA, 0x24EA, 1, 0x30⟩,
    ⟨0xFF01, 0xFF0D, 1, 0x21⟩, ⟨0xFF0F, 0xFF20, 1, 0x2F⟩,
    ⟨0xFF21, 0xFF3A, 1, 0x61⟩, ⟨0xFF3B, 0xFF5E, 1, 0x5B⟩,
    ⟨0xFF5F, 0xFF60, 1, 0x2985⟩, ⟨0xFF62, 0xFF63, 1, 0x300C⟩,
    ⟨0xFF64, 0xFF64, 1, 0x3001⟩, ⟨0xFF65, 0xFF65, 1, 0x30FB⟩,
    ⟨0xFF66, 0xFF66, 1, 0x30F2⟩, ⟨0xFF67, 0xFF67, 1, 0x30A1⟩,
    ⟨0xFF68, 0xFF68, 1, 0x30A3⟩, ⟨0xFF69, 0xFF69, 1, 0x30A5⟩,
    ⟨0xFF6A, 0xFF6A, 1, 0x30A7⟩, ⟨0xFF6B, 0xFF6B, 1, 0x30A9⟩,
    ⟨0xFF6C, 0xFF6C, 1, 0x30E3⟩, ⟨0xFF6D, 0xFF6D, 1, 0x30E5⟩,
    ⟨0xFF6E, 0xFF6E, 1, 0x30E7⟩, ⟨0xFF6F, 0xFF6F, 1, 0x30C3⟩,
    ⟨0xFF70, 0xFF70, 1, 0x30FC⟩, ⟨0xFF71, 0xFF71, 1, 0x30A2⟩,
    ⟨0xFF72, 0xFF72, 1, 0x30A4⟩, ⟨0xFF73, 0xFF73, 1, 0x30A6⟩,
    ⟨0xFF74, 0xFF74, 1, 0x30A8⟩, ⟨0xFF75, 0xFF76, 1, 0x30AA⟩,
    ⟨0xFF77, 0xFF77, 1, 0x30AD⟩, ⟨0xFF78, 0xFF78, 1, 0x30AF⟩,
    ⟨0xFF79, 0xFF79, 1, 0x30B1⟩, ⟨0xFF7A, 0xFF7A, 1, 0x30B3⟩,
    ⟨0xFF7B, 0xFF7B, 1, 0x30B5⟩, ⟨0xFF7C, 0xFF7C, 1, 0x30B7⟩,
    ⟨0xFF7D, 0xFF7D, 1, 0x30B9⟩, ⟨0xFF7E, 0xFF7E, 1, 0x30BB⟩,
    ⟨0xFF7F, 0xFF7F, 1, 0x30BD⟩, ⟨0xFF80, 0xFF80, 1, 0x30BF⟩,
    ⟨0xFF81, 0xFF81, 1, 0x30C1⟩, ⟨0xFF82, 0xFF82, 1, 0x30C4⟩,
    ⟨0xFF83, 0xFF83, 1, 0x30C6⟩, ⟨0xFF84, 0xFF84, 1, 0x30C8⟩,
    ⟨0xFF85, 0xFF8A, 1, 0x30CA⟩, ⟨0xFF8B, 0xFF8B, 1, 0x30D2⟩,
    ⟨0xFF8C, 0xFF8C, 1, 0x30D5⟩, ⟨0xFF8D, 0xFF8D, 1, 0x30D8⟩,
    ⟨0xFF8E, 0xFF8E, 1, 0x30DB⟩, ⟨0xFF8F, 0xFF93, 1, 0x30DE⟩,
    ⟨0xFF94, 0xFF94, 1, 0x30E4⟩, ⟨0xFF95, 0xFF95, 1, 0x30E6⟩,
    ⟨0xFF96, 0xFF9B, 1, 0x30E8⟩, ⟨0xFF9C, 0xFF9C, 1, 0x30EF⟩,
    ⟨0xFF9D, 0xFF9D, 1, 0x30F3⟩, ⟨0xFF9E, 0xFF9F, 1, 0x3099⟩,
    ⟨0xFFA1, 0xFFA2, 1, 0x1100⟩, ⟨0xFFA3, 0xFFA3, 1, 0x11AA⟩,
    ⟨0xFFA4, 0xFFA4, 1, 0x1102⟩, ⟨0xFFA5, 0xFFA6, 1, 0x11AC⟩,
    ⟨0xFFA7, 0xFFA9, 1, 0x1103⟩, ⟨0xFFAA, 0xFFAF, 1, 0x11B0⟩,
    ⟨0xFFB0, 0xFFB0, 1, 0x111A⟩, ⟨0xFFB1, 0xFFB3, 1, 0x1106⟩,
    ⟨0xFFB4, 0xFFB4, 1, 0x1121⟩, ⟨0xFFB5, 0xFFBE, 1, 0x1109⟩,
    ⟨0xFFC2, 0xFFC7, 1, 0x1161⟩, ⟨0xFFCA, 0xFFCF, 1, 0x1167⟩,
    ⟨0xFFD2, 0xFFD7, 1, 0x116D⟩, ⟨0xFFDA, 0xFFDC, 1, 0x1173⟩,
    ⟨0xFFE0, 0xFFE1, 1, 0xA2⟩, ⟨0xFFE2, 0xFFE2, 1, 0xAC⟩,
    ⟨0xFFE4, 0xFFE4, 1, 0xA6⟩, ⟨0xFFE5, 0xFFE5, 1, 0xA5⟩,
    ⟨0xFFE6, 0xFFE6, 1, 0x20A9⟩, ⟨0xFFE8, 0xFFE8, 1, 0x2502⟩,
    ⟨0xFFE9, 0xFFEC, 1, 0x2190⟩, ⟨0xFFED, 0xFFED, 1, 0x25A0⟩,
    ⟨0xFFEE, 0xFFEE, 1, 0x25CB⟩]

/-- The characters that stand for several others. -/
def expansions : List (Nat × String) :=
  [(0xA8, " \u0308"), (0xAF, " \u0304"), (0xB4, " \u0301"),
    (0xB8, " \u0327"), (0xBC, "1\u20444"), (0xBD, "1\u20442"),
    (0xBE, "3\u20444"), (0x130, "i\u0307"), (0x132, "ij"), (0x133, "ij"),
    (0x13F, "l\u00b7"), (0x140, "l\u00b7"), (0x149, "\u02bcn"),
    (0x1C4, "d\u017e"), (0x1C5, "d\u017e"), (0x1C6, "d\u017e"), (0x1C7, "lj"),
    (0x1C8, "lj"), (0x1C9, "lj"), (0x1CA, "nj"), (0x1CB, "nj"), (0x1CC, "nj"),
    (0x1F1, "dz"), (0x1F2, "dz"), (0x1F3, "dz"), (0x37A, " \u03b9"),
    (0x384, " \u0301"), (0x385, " \u0308\u0301"), (0x587, "\u0565\u0582"),
    (0x1E9A, "a\u02be"), (0x2100, "a/c"), (0x2101, "a/s"),
    (0x2103, "\u00b0c"), (0x2105, "c/o"), (0x2106, "c/u"),
    (0x2109, "\u00b0f"), (0x2116, "no"), (0x2120, "sm"), (0x2121, "tel"),
    (0x2122, "tm"), (0x213B, "fax"), (0x2150, "1\u20447"),
    (0x2151, "1\u20449"), (0x2152, "1\u204410"), (0x2153, "1\u20443"),
    (0x2154, "2\u20443"), (0x2155, "1\u20445"), (0x2156, "2\u20445"),
    (0x2157, "3\u20445"), (0x2158, "4\u20445"), (0x2159, "1\u20446"),
    (0x215A, "5\u20446"), (0x215B, "1\u20448"), (0x215C, "3\u20448"),
    (0x215D, "5\u20448"), (0x215E, "7\u20448"), (0x215F, "1\u2044"),
    (0x2161, "ii"), (0x2162, "iii"), (0x2163, "iv"), (0x2165, "vi"),
    (0x2166, "vii"), (0x2167, "viii"), (0x2168, "ix"), (0x216A, "xi"),
    (0x216B, "xii"), (0x2171, "ii"), (0x2172, "iii"), (0x2173, "iv"),
    (0x2175, "vi"), (0x2176, "vii"), (0x2177, "viii"), (0x2178, "ix"),
    (0x217A, "xi"), (0x217B, "xii"), (0x2189, "0\u20443"), (0x2469, "10"),
    (0x246A, "11"), (0x246B, "12"), (0x246C, "13"), (0x246D, "14"),
    (0x246E, "15"), (0x246F, "16"), (0x2470, "17"), (0x2471, "18"),
    (0x2472, "19"), (0x2473, "20"), (0x2474, "(1)"), (0x2475, "(2)"),
    (0x2476, "(3)"), (0x2477, "(4)"), (0x2478, "(5)"), (0x2479, "(6)"),
    (0x247A, "(7)"), (0x247B, "(8)"), (0x247C, "(9)"), (0x247D, "(10)"),
    (0x247E, "(11)"), (0x247F, "(12)"), (0x2480, "(13)"), (0x2481, "(14)"),
    (0x2482, "(15)"), (0x2483, "(16)"), (0x2484, "(17)"), (0x2485, "(18)"),
    (0x2486, "(19)"), (0x2487, "(20)"), (0x249C, "(a)"), (0x249D, "(b)"),
    (0x249E, "(c)"), (0x249F, "(d)"), (0x24A0, "(e)"), (0x24A1, "(f)"),
    (0x24A2, "(g)"), (0x24A3, "(h)"), (0x24A4, "(i)"), (0x24A5, "(j)"),
    (0x24A6, "(k)"), (0x24A7, "(l)"), (0x24A8, "(m)"), (0x24A9, "(n)"),
    (0x24AA, "(o)"), (0x24AB, "(p)"), (0x24AC, "(q)"), (0x24AD, "(r)"),
    (0x24AE, "(s)"), (0x24AF, "(t)"), (0x24B0, "(u)"), (0x24B1, "(v)"),
    (0x24B2, "(w)"), (0x24B3, "(x)"), (0x24B4, "(y)"), (0x24B5, "(z)"),
    (0xFB00, "ff"), (0xFB01, "fi"), (0xFB02, "fl"), (0xFB03, "ffi"),
    (0xFB04, "ffl"), (0xFB05, "st"), (0xFB06, "st"), (0xFFE3, " \u0304")]

/-- The characters that a character stands for; most stand for themselves. -/
def folded (character : Char) : List Char :=
  let value := character.toNat
  match expansions.lookup value with
  | some text =>
      text.toList
  | none =>
      match folds.findSome? (·.image? value) with
      | some image =>
          [Char.ofNat image]
      | none =>
          [character]

end EventRelay.Domain
