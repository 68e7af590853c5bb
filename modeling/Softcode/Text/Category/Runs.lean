/-
**The general category of every code point, as runs.**

A run is an interval of code points that share one general category, or an interval in which two
categories alternate (upper case and lower case letters that come in pairs).  The runs are listed
in ascending order, so a code point that lies in no run, or before the next one, is unassigned.

The listing is cut into sections of consecutive code points so that a look-up walks one section
only.

Main definitions:

* `Softcode.Category` — the thirty general categories;
* `Softcode.Category.Run` — an interval of code points with its category;
* `Softcode.Category.sectionRuns` — the runs of the section that holds a code point.
-/

set_option autoImplicit false

namespace Softcode

/-- The general categories of the Unicode standard, by their two-letter names. -/
inductive Category where
  | lu | ll | lt | lm | lo
  | mn | mc | me
  | nd | nl | no
  | pc | pd | ps | pe | pi | pf | po
  | sm | sc | sk | so
  | zs | zl | zp
  | cc | cf | cs | co | cn
  deriving DecidableEq

namespace Category

/-- The code points from `first` to `last`: those at an even distance from `first` have category
`even`, the others `odd`. -/
structure Run where
  first : Nat
  last : Nat
  even : Category
  odd : Category

/-- An interval with one category. -/
def run (first last : Nat) (c : Category) : Run := ⟨first, last, c, c⟩

/-- A single code point. -/
def one (n : Nat) (c : Category) : Run := ⟨n, n, c, c⟩

/-- An interval in which two categories alternate. -/
def pairs (first last : Nat) (even odd : Category) : Run := ⟨first, last, even, odd⟩

/-- The category that a run gives to the code point `n`. -/
def Run.categoryAt (r : Run) (n : Nat) : Category :=
  if (n - r.first) % 2 = 0 then r.even else r.odd

/-! ### The runs -/

/-- Runs of U+0000 to U+05FF: Latin, Greek, Cyrillic, Armenian and Hebrew. -/
def europeanRuns : List Run := [
  run 0x0 0x1f .cc, one 0x20 .zs, run 0x21 0x23 .po, one 0x24 .sc, run 0x25 0x27 .po,
  one 0x28 .ps, one 0x29 .pe, one 0x2a .po, one 0x2b .sm, one 0x2c .po, one 0x2d .pd,
  run 0x2e 0x2f .po, run 0x30 0x39 .nd, run 0x3a 0x3b .po, run 0x3c 0x3e .sm,
  run 0x3f 0x40 .po, run 0x41 0x5a .lu, one 0x5b .ps, one 0x5c .po, one 0x5d .pe, one 0x5e .sk,
  one 0x5f .pc, one 0x60 .sk, run 0x61 0x7a .ll, one 0x7b .ps, one 0x7c .sm, one 0x7d .pe,
  one 0x7e .sm, run 0x7f 0x9f .cc, one 0xa0 .zs, one 0xa1 .po, run 0xa2 0xa5 .sc, one 0xa6 .so,
  one 0xa7 .po, one 0xa8 .sk, one 0xa9 .so, one 0xaa .lo, one 0xab .pi, one 0xac .sm,
  one 0xad .cf, one 0xae .so, one 0xaf .sk, one 0xb0 .so, one 0xb1 .sm, run 0xb2 0xb3 .no,
  one 0xb4 .sk, one 0xb5 .ll, run 0xb6 0xb7 .po, one 0xb8 .sk, one 0xb9 .no, one 0xba .lo,
  one 0xbb .pf, run 0xbc 0xbe .no, one 0xbf .po, run 0xc0 0xd6 .lu, one 0xd7 .sm,
  run 0xd8 0xde .lu, run 0xdf 0xf6 .ll, one 0xf7 .sm, run 0xf8 0xff .ll,
  pairs 0x100 0x137 .lu .ll, pairs 0x138 0x148 .ll .lu, pairs 0x149 0x178 .ll .lu,
  pairs 0x179 0x17e .lu .ll, run 0x17f 0x180 .ll, run 0x181 0x182 .lu,
  pairs 0x183 0x186 .ll .lu, one 0x187 .lu, one 0x188 .ll, run 0x189 0x18b .lu,
  run 0x18c 0x18d .ll, run 0x18e 0x191 .lu, one 0x192 .ll, run 0x193 0x194 .lu, one 0x195 .ll,
  run 0x196 0x198 .lu, run 0x199 0x19b .ll, run 0x19c 0x19d .lu, one 0x19e .ll,
  run 0x19f 0x1a0 .lu, pairs 0x1a1 0x1a6 .ll .lu, pairs 0x1a7 0x1aa .lu .ll,
  pairs 0x1ab 0x1ae .ll .lu, one 0x1af .lu, one 0x1b0 .ll, run 0x1b1 0x1b3 .lu,
  pairs 0x1b4 0x1b7 .ll .lu, one 0x1b8 .lu, run 0x1b9 0x1ba .ll, one 0x1bb .lo, one 0x1bc .lu,
  run 0x1bd 0x1bf .ll, run 0x1c0 0x1c3 .lo, one 0x1c4 .lu, one 0x1c5 .lt, one 0x1c6 .ll,
  one 0x1c7 .lu, one 0x1c8 .lt, one 0x1c9 .ll, one 0x1ca .lu, one 0x1cb .lt,
  pairs 0x1cc 0x1dc .ll .lu, pairs 0x1dd 0x1ef .ll .lu, one 0x1f0 .ll, one 0x1f1 .lu,
  one 0x1f2 .lt, pairs 0x1f3 0x1f6 .ll .lu, run 0x1f7 0x1f8 .lu, pairs 0x1f9 0x233 .ll .lu,
  run 0x234 0x239 .ll, run 0x23a 0x23b .lu, one 0x23c .ll, run 0x23d 0x23e .lu,
  run 0x23f 0x240 .ll, one 0x241 .lu, one 0x242 .ll, run 0x243 0x246 .lu,
  pairs 0x247 0x24f .ll .lu, run 0x250 0x293 .ll, run 0x294 0x295 .lo, run 0x296 0x2af .ll,
  run 0x2b0 0x2c1 .lm, run 0x2c2 0x2c5 .sk, run 0x2c6 0x2d1 .lm, run 0x2d2 0x2df .sk,
  run 0x2e0 0x2e4 .lm, run 0x2e5 0x2eb .sk, one 0x2ec .lm, one 0x2ed .sk, one 0x2ee .lm,
  run 0x2ef 0x2ff .sk, run 0x300 0x36f .mn, pairs 0x370 0x373 .lu .ll, one 0x374 .lm,
  one 0x375 .sk, one 0x376 .lu, one 0x377 .ll, one 0x37a .lm, run 0x37b 0x37d .ll,
  one 0x37e .po, one 0x37f .lu, run 0x384 0x385 .sk, one 0x386 .lu, one 0x387 .po,
  run 0x388 0x38a .lu, one 0x38c .lu, run 0x38e 0x38f .lu, one 0x390 .ll, run 0x391 0x3a1 .lu,
  run 0x3a3 0x3ab .lu, run 0x3ac 0x3ce .ll, one 0x3cf .lu, run 0x3d0 0x3d1 .ll,
  run 0x3d2 0x3d4 .lu, run 0x3d5 0x3d7 .ll, pairs 0x3d8 0x3ef .lu .ll, run 0x3f0 0x3f3 .ll,
  one 0x3f4 .lu, one 0x3f5 .ll, one 0x3f6 .sm, one 0x3f7 .lu, one 0x3f8 .ll,
  run 0x3f9 0x3fa .lu, run 0x3fb 0x3fc .ll, run 0x3fd 0x42f .lu, run 0x430 0x45f .ll,
  pairs 0x460 0x481 .lu .ll, one 0x482 .so, run 0x483 0x487 .mn, run 0x488 0x489 .me,
  pairs 0x48a 0x4c0 .lu .ll, pairs 0x4c1 0x4ce .lu .ll, pairs 0x4cf 0x52f .ll .lu,
  run 0x531 0x556 .lu, one 0x559 .lm, run 0x55a 0x55f .po, run 0x560 0x588 .ll, one 0x589 .po,
  one 0x58a .pd, run 0x58d 0x58e .so, one 0x58f .sc, run 0x591 0x5bd .mn, one 0x5be .pd,
  one 0x5bf .mn, one 0x5c0 .po, run 0x5c1 0x5c2 .mn, one 0x5c3 .po, run 0x5c4 0x5c5 .mn,
  one 0x5c6 .po, one 0x5c7 .mn, run 0x5d0 0x5ea .lo, run 0x5ef 0x5f2 .lo, run 0x5f3 0x5f4 .po]

/-- Runs of U+0600 to U+0FFF: Arabic to Tibetan. -/
def indicRuns : List Run := [
  run 0x600 0x605 .cf, run 0x606 0x608 .sm, run 0x609 0x60a .po, one 0x60b .sc,
  run 0x60c 0x60d .po, run 0x60e 0x60f .so, run 0x610 0x61a .mn, one 0x61b .po, one 0x61c .cf,
  run 0x61d 0x61f .po, run 0x620 0x63f .lo, one 0x640 .lm, run 0x641 0x64a .lo,
  run 0x64b 0x65f .mn, run 0x660 0x669 .nd, run 0x66a 0x66d .po, run 0x66e 0x66f .lo,
  one 0x670 .mn, run 0x671 0x6d3 .lo, one 0x6d4 .po, one 0x6d5 .lo, run 0x6d6 0x6dc .mn,
  one 0x6dd .cf, one 0x6de .so, run 0x6df 0x6e4 .mn, run 0x6e5 0x6e6 .lm, run 0x6e7 0x6e8 .mn,
  one 0x6e9 .so, run 0x6ea 0x6ed .mn, run 0x6ee 0x6ef .lo, run 0x6f0 0x6f9 .nd,
  run 0x6fa 0x6fc .lo, run 0x6fd 0x6fe .so, one 0x6ff .lo, run 0x700 0x70d .po, one 0x70f .cf,
  one 0x710 .lo, one 0x711 .mn, run 0x712 0x72f .lo, run 0x730 0x74a .mn, run 0x74d 0x7a5 .lo,
  run 0x7a6 0x7b0 .mn, one 0x7b1 .lo, run 0x7c0 0x7c9 .nd, run 0x7ca 0x7ea .lo,
  run 0x7eb 0x7f3 .mn, run 0x7f4 0x7f5 .lm, one 0x7f6 .so, run 0x7f7 0x7f9 .po, one 0x7fa .lm,
  one 0x7fd .mn, run 0x7fe 0x7ff .sc, run 0x800 0x815 .lo, run 0x816 0x819 .mn, one 0x81a .lm,
  run 0x81b 0x823 .mn, one 0x824 .lm, run 0x825 0x827 .mn, one 0x828 .lm, run 0x829 0x82d .mn,
  run 0x830 0x83e .po, run 0x840 0x858 .lo, run 0x859 0x85b .mn, one 0x85e .po,
  run 0x860 0x86a .lo, run 0x870 0x887 .lo, one 0x888 .sk, run 0x889 0x88f .lo,
  run 0x890 0x891 .cf, run 0x897 0x89f .mn, run 0x8a0 0x8c8 .lo, one 0x8c9 .lm,
  run 0x8ca 0x8e1 .mn, one 0x8e2 .cf, run 0x8e3 0x902 .mn, one 0x903 .mc, run 0x904 0x939 .lo,
  one 0x93a .mn, one 0x93b .mc, one 0x93c .mn, one 0x93d .lo, run 0x93e 0x940 .mc,
  run 0x941 0x948 .mn, run 0x949 0x94c .mc, one 0x94d .mn, run 0x94e 0x94f .mc, one 0x950 .lo,
  run 0x951 0x957 .mn, run 0x958 0x961 .lo, run 0x962 0x963 .mn, run 0x964 0x965 .po,
  run 0x966 0x96f .nd, one 0x970 .po, one 0x971 .lm, run 0x972 0x980 .lo, one 0x981 .mn,
  run 0x982 0x983 .mc, run 0x985 0x98c .lo, run 0x98f 0x990 .lo, run 0x993 0x9a8 .lo,
  run 0x9aa 0x9b0 .lo, one 0x9b2 .lo, run 0x9b6 0x9b9 .lo, one 0x9bc .mn, one 0x9bd .lo,
  run 0x9be 0x9c0 .mc, run 0x9c1 0x9c4 .mn, run 0x9c7 0x9c8 .mc, run 0x9cb 0x9cc .mc,
  one 0x9cd .mn, one 0x9ce .lo, one 0x9d7 .mc, run 0x9dc 0x9dd .lo, run 0x9df 0x9e1 .lo,
  run 0x9e2 0x9e3 .mn, run 0x9e6 0x9ef .nd, run 0x9f0 0x9f1 .lo, run 0x9f2 0x9f3 .sc,
  run 0x9f4 0x9f9 .no, one 0x9fa .so, one 0x9fb .sc, one 0x9fc .lo, one 0x9fd .po,
  one 0x9fe .mn, run 0xa01 0xa02 .mn, one 0xa03 .mc, run 0xa05 0xa0a .lo, run 0xa0f 0xa10 .lo,
  run 0xa13 0xa28 .lo, run 0xa2a 0xa30 .lo, run 0xa32 0xa33 .lo, run 0xa35 0xa36 .lo,
  run 0xa38 0xa39 .lo, one 0xa3c .mn, run 0xa3e 0xa40 .mc, run 0xa41 0xa42 .mn,
  run 0xa47 0xa48 .mn, run 0xa4b 0xa4d .mn, one 0xa51 .mn, run 0xa59 0xa5c .lo, one 0xa5e .lo,
  run 0xa66 0xa6f .nd, run 0xa70 0xa71 .mn, run 0xa72 0xa74 .lo, one 0xa75 .mn, one 0xa76 .po,
  run 0xa81 0xa82 .mn, one 0xa83 .mc, run 0xa85 0xa8d .lo, run 0xa8f 0xa91 .lo,
  run 0xa93 0xaa8 .lo, run 0xaaa 0xab0 .lo, run 0xab2 0xab3 .lo, run 0xab5 0xab9 .lo,
  one 0xabc .mn, one 0xabd .lo, run 0xabe 0xac0 .mc, run 0xac1 0xac5 .mn, run 0xac7 0xac8 .mn,
  one 0xac9 .mc, run 0xacb 0xacc .mc, one 0xacd .mn, one 0xad0 .lo, run 0xae0 0xae1 .lo,
  run 0xae2 0xae3 .mn, run 0xae6 0xaef .nd, one 0xaf0 .po, one 0xaf1 .sc, one 0xaf9 .lo,
  run 0xafa 0xaff .mn, one 0xb01 .mn, run 0xb02 0xb03 .mc, run 0xb05 0xb0c .lo,
  run 0xb0f 0xb10 .lo, run 0xb13 0xb28 .lo, run 0xb2a 0xb30 .lo, run 0xb32 0xb33 .lo,
  run 0xb35 0xb39 .lo, one 0xb3c .mn, one 0xb3d .lo, one 0xb3e .mc, one 0xb3f .mn,
  one 0xb40 .mc, run 0xb41 0xb44 .mn, run 0xb47 0xb48 .mc, run 0xb4b 0xb4c .mc, one 0xb4d .mn,
  run 0xb55 0xb56 .mn, one 0xb57 .mc, run 0xb5c 0xb5d .lo, run 0xb5f 0xb61 .lo,
  run 0xb62 0xb63 .mn, run 0xb66 0xb6f .nd, one 0xb70 .so, one 0xb71 .lo, run 0xb72 0xb77 .no,
  one 0xb82 .mn, one 0xb83 .lo, run 0xb85 0xb8a .lo, run 0xb8e 0xb90 .lo, run 0xb92 0xb95 .lo,
  run 0xb99 0xb9a .lo, one 0xb9c .lo, run 0xb9e 0xb9f .lo, run 0xba3 0xba4 .lo,
  run 0xba8 0xbaa .lo, run 0xbae 0xbb9 .lo, run 0xbbe 0xbbf .mc, one 0xbc0 .mn,
  run 0xbc1 0xbc2 .mc, run 0xbc6 0xbc8 .mc, run 0xbca 0xbcc .mc, one 0xbcd .mn, one 0xbd0 .lo,
  one 0xbd7 .mc, run 0xbe6 0xbef .nd, run 0xbf0 0xbf2 .no, run 0xbf3 0xbf8 .so, one 0xbf9 .sc,
  one 0xbfa .so, one 0xc00 .mn, run 0xc01 0xc03 .mc, one 0xc04 .mn, run 0xc05 0xc0c .lo,
  run 0xc0e 0xc10 .lo, run 0xc12 0xc28 .lo, run 0xc2a 0xc39 .lo, one 0xc3c .mn, one 0xc3d .lo,
  run 0xc3e 0xc40 .mn, run 0xc41 0xc44 .mc, run 0xc46 0xc48 .mn, run 0xc4a 0xc4d .mn,
  run 0xc55 0xc56 .mn, run 0xc58 0xc5a .lo, run 0xc5c 0xc5d .lo, run 0xc60 0xc61 .lo,
  run 0xc62 0xc63 .mn, run 0xc66 0xc6f .nd, one 0xc77 .po, run 0xc78 0xc7e .no, one 0xc7f .so,
  one 0xc80 .lo, one 0xc81 .mn, run 0xc82 0xc83 .mc, one 0xc84 .po, run 0xc85 0xc8c .lo,
  run 0xc8e 0xc90 .lo, run 0xc92 0xca8 .lo, run 0xcaa 0xcb3 .lo, run 0xcb5 0xcb9 .lo,
  one 0xcbc .mn, one 0xcbd .lo, one 0xcbe .mc, one 0xcbf .mn, run 0xcc0 0xcc4 .mc,
  one 0xcc6 .mn, run 0xcc7 0xcc8 .mc, run 0xcca 0xccb .mc, run 0xccc 0xccd .mn,
  run 0xcd5 0xcd6 .mc, run 0xcdc 0xcde .lo, run 0xce0 0xce1 .lo, run 0xce2 0xce3 .mn,
  run 0xce6 0xcef .nd, run 0xcf1 0xcf2 .lo, one 0xcf3 .mc, run 0xd00 0xd01 .mn,
  run 0xd02 0xd03 .mc, run 0xd04 0xd0c .lo, run 0xd0e 0xd10 .lo, run 0xd12 0xd3a .lo,
  run 0xd3b 0xd3c .mn, one 0xd3d .lo, run 0xd3e 0xd40 .mc, run 0xd41 0xd44 .mn,
  run 0xd46 0xd48 .mc, run 0xd4a 0xd4c .mc, one 0xd4d .mn, one 0xd4e .lo, one 0xd4f .so,
  run 0xd54 0xd56 .lo, one 0xd57 .mc, run 0xd58 0xd5e .no, run 0xd5f 0xd61 .lo,
  run 0xd62 0xd63 .mn, run 0xd66 0xd6f .nd, run 0xd70 0xd78 .no, one 0xd79 .so,
  run 0xd7a 0xd7f .lo, one 0xd81 .mn, run 0xd82 0xd83 .mc, run 0xd85 0xd96 .lo,
  run 0xd9a 0xdb1 .lo, run 0xdb3 0xdbb .lo, one 0xdbd .lo, run 0xdc0 0xdc6 .lo, one 0xdca .mn,
  run 0xdcf 0xdd1 .mc, run 0xdd2 0xdd4 .mn, one 0xdd6 .mn, run 0xdd8 0xddf .mc,
  run 0xde6 0xdef .nd, run 0xdf2 0xdf3 .mc, one 0xdf4 .po, run 0xe01 0xe30 .lo, one 0xe31 .mn,
  run 0xe32 0xe33 .lo, run 0xe34 0xe3a .mn, one 0xe3f .sc, run 0xe40 0xe45 .lo, one 0xe46 .lm,
  run 0xe47 0xe4e .mn, one 0xe4f .po, run 0xe50 0xe59 .nd, run 0xe5a 0xe5b .po,
  run 0xe81 0xe82 .lo, one 0xe84 .lo, run 0xe86 0xe8a .lo, run 0xe8c 0xea3 .lo, one 0xea5 .lo,
  run 0xea7 0xeb0 .lo, one 0xeb1 .mn, run 0xeb2 0xeb3 .lo, run 0xeb4 0xebc .mn, one 0xebd .lo,
  run 0xec0 0xec4 .lo, one 0xec6 .lm, run 0xec8 0xece .mn, run 0xed0 0xed9 .nd,
  run 0xedc 0xedf .lo, one 0xf00 .lo, run 0xf01 0xf03 .so, run 0xf04 0xf12 .po, one 0xf13 .so,
  one 0xf14 .po, run 0xf15 0xf17 .so, run 0xf18 0xf19 .mn, run 0xf1a 0xf1f .so,
  run 0xf20 0xf29 .nd, run 0xf2a 0xf33 .no, one 0xf34 .so, one 0xf35 .mn, one 0xf36 .so,
  one 0xf37 .mn, one 0xf38 .so, one 0xf39 .mn, one 0xf3a .ps, one 0xf3b .pe, one 0xf3c .ps,
  one 0xf3d .pe, run 0xf3e 0xf3f .mc, run 0xf40 0xf47 .lo, run 0xf49 0xf6c .lo,
  run 0xf71 0xf7e .mn, one 0xf7f .mc, run 0xf80 0xf84 .mn, one 0xf85 .po, run 0xf86 0xf87 .mn,
  run 0xf88 0xf8c .lo, run 0xf8d 0xf97 .mn, run 0xf99 0xfbc .mn, run 0xfbe 0xfc5 .so,
  one 0xfc6 .mn, run 0xfc7 0xfcc .so, run 0xfce 0xfcf .so, run 0xfd0 0xfd4 .po,
  run 0xfd5 0xfd8 .so, run 0xfd9 0xfda .po]

/-- Runs of U+1000 to U+1CFF: Myanmar to the Vedic extensions. -/
def southeastAsianRuns : List Run := [
  run 0x1000 0x102a .lo, run 0x102b 0x102c .mc, run 0x102d 0x1030 .mn, one 0x1031 .mc,
  run 0x1032 0x1037 .mn, one 0x1038 .mc, run 0x1039 0x103a .mn, run 0x103b 0x103c .mc,
  run 0x103d 0x103e .mn, one 0x103f .lo, run 0x1040 0x1049 .nd, run 0x104a 0x104f .po,
  run 0x1050 0x1055 .lo, run 0x1056 0x1057 .mc, run 0x1058 0x1059 .mn, run 0x105a 0x105d .lo,
  run 0x105e 0x1060 .mn, one 0x1061 .lo, run 0x1062 0x1064 .mc, run 0x1065 0x1066 .lo,
  run 0x1067 0x106d .mc, run 0x106e 0x1070 .lo, run 0x1071 0x1074 .mn, run 0x1075 0x1081 .lo,
  one 0x1082 .mn, run 0x1083 0x1084 .mc, run 0x1085 0x1086 .mn, run 0x1087 0x108c .mc,
  one 0x108d .mn, one 0x108e .lo, one 0x108f .mc, run 0x1090 0x1099 .nd, run 0x109a 0x109c .mc,
  one 0x109d .mn, run 0x109e 0x109f .so, run 0x10a0 0x10c5 .lu, one 0x10c7 .lu, one 0x10cd .lu,
  run 0x10d0 0x10fa .ll, one 0x10fb .po, one 0x10fc .lm, run 0x10fd 0x10ff .ll,
  run 0x1100 0x1248 .lo, run 0x124a 0x124d .lo, run 0x1250 0x1256 .lo, one 0x1258 .lo,
  run 0x125a 0x125d .lo, run 0x1260 0x1288 .lo, run 0x128a 0x128d .lo, run 0x1290 0x12b0 .lo,
  run 0x12b2 0x12b5 .lo, run 0x12b8 0x12be .lo, one 0x12c0 .lo, run 0x12c2 0x12c5 .lo,
  run 0x12c8 0x12d6 .lo, run 0x12d8 0x1310 .lo, run 0x1312 0x1315 .lo, run 0x1318 0x135a .lo,
  run 0x135d 0x135f .mn, run 0x1360 0x1368 .po, run 0x1369 0x137c .no, run 0x1380 0x138f .lo,
  run 0x1390 0x1399 .so, run 0x13a0 0x13f5 .lu, run 0x13f8 0x13fd .ll, one 0x1400 .pd,
  run 0x1401 0x166c .lo, one 0x166d .so, one 0x166e .po, run 0x166f 0x167f .lo, one 0x1680 .zs,
  run 0x1681 0x169a .lo, one 0x169b .ps, one 0x169c .pe, run 0x16a0 0x16ea .lo,
  run 0x16eb 0x16ed .po, run 0x16ee 0x16f0 .nl, run 0x16f1 0x16f8 .lo, run 0x1700 0x1711 .lo,
  run 0x1712 0x1714 .mn, one 0x1715 .mc, run 0x171f 0x1731 .lo, run 0x1732 0x1733 .mn,
  one 0x1734 .mc, run 0x1735 0x1736 .po, run 0x1740 0x1751 .lo, run 0x1752 0x1753 .mn,
  run 0x1760 0x176c .lo, run 0x176e 0x1770 .lo, run 0x1772 0x1773 .mn, run 0x1780 0x17b3 .lo,
  run 0x17b4 0x17b5 .mn, one 0x17b6 .mc, run 0x17b7 0x17bd .mn, run 0x17be 0x17c5 .mc,
  one 0x17c6 .mn, run 0x17c7 0x17c8 .mc, run 0x17c9 0x17d3 .mn, run 0x17d4 0x17d6 .po,
  one 0x17d7 .lm, run 0x17d8 0x17da .po, one 0x17db .sc, one 0x17dc .lo, one 0x17dd .mn,
  run 0x17e0 0x17e9 .nd, run 0x17f0 0x17f9 .no, run 0x1800 0x1805 .po, one 0x1806 .pd,
  run 0x1807 0x180a .po, run 0x180b 0x180d .mn, one 0x180e .cf, one 0x180f .mn,
  run 0x1810 0x1819 .nd, run 0x1820 0x1842 .lo, one 0x1843 .lm, run 0x1844 0x1878 .lo,
  run 0x1880 0x1884 .lo, run 0x1885 0x1886 .mn, run 0x1887 0x18a8 .lo, one 0x18a9 .mn,
  one 0x18aa .lo, run 0x18b0 0x18f5 .lo, run 0x1900 0x191e .lo, run 0x1920 0x1922 .mn,
  run 0x1923 0x1926 .mc, run 0x1927 0x1928 .mn, run 0x1929 0x192b .mc, run 0x1930 0x1931 .mc,
  one 0x1932 .mn, run 0x1933 0x1938 .mc, run 0x1939 0x193b .mn, one 0x1940 .so,
  run 0x1944 0x1945 .po, run 0x1946 0x194f .nd, run 0x1950 0x196d .lo, run 0x1970 0x1974 .lo,
  run 0x1980 0x19ab .lo, run 0x19b0 0x19c9 .lo, run 0x19d0 0x19d9 .nd, one 0x19da .no,
  run 0x19de 0x19ff .so, run 0x1a00 0x1a16 .lo, run 0x1a17 0x1a18 .mn, run 0x1a19 0x1a1a .mc,
  one 0x1a1b .mn, run 0x1a1e 0x1a1f .po, run 0x1a20 0x1a54 .lo, one 0x1a55 .mc, one 0x1a56 .mn,
  one 0x1a57 .mc, run 0x1a58 0x1a5e .mn, one 0x1a60 .mn, one 0x1a61 .mc, one 0x1a62 .mn,
  run 0x1a63 0x1a64 .mc, run 0x1a65 0x1a6c .mn, run 0x1a6d 0x1a72 .mc, run 0x1a73 0x1a7c .mn,
  one 0x1a7f .mn, run 0x1a80 0x1a89 .nd, run 0x1a90 0x1a99 .nd, run 0x1aa0 0x1aa6 .po,
  one 0x1aa7 .lm, run 0x1aa8 0x1aad .po, run 0x1ab0 0x1abd .mn, one 0x1abe .me,
  run 0x1abf 0x1add .mn, run 0x1ae0 0x1aeb .mn, run 0x1b00 0x1b03 .mn, one 0x1b04 .mc,
  run 0x1b05 0x1b33 .lo, one 0x1b34 .mn, one 0x1b35 .mc, run 0x1b36 0x1b3a .mn, one 0x1b3b .mc,
  one 0x1b3c .mn, run 0x1b3d 0x1b41 .mc, one 0x1b42 .mn, run 0x1b43 0x1b44 .mc,
  run 0x1b45 0x1b4c .lo, run 0x1b4e 0x1b4f .po, run 0x1b50 0x1b59 .nd, run 0x1b5a 0x1b60 .po,
  run 0x1b61 0x1b6a .so, run 0x1b6b 0x1b73 .mn, run 0x1b74 0x1b7c .so, run 0x1b7d 0x1b7f .po,
  run 0x1b80 0x1b81 .mn, one 0x1b82 .mc, run 0x1b83 0x1ba0 .lo, one 0x1ba1 .mc,
  run 0x1ba2 0x1ba5 .mn, run 0x1ba6 0x1ba7 .mc, run 0x1ba8 0x1ba9 .mn, one 0x1baa .mc,
  run 0x1bab 0x1bad .mn, run 0x1bae 0x1baf .lo, run 0x1bb0 0x1bb9 .nd, run 0x1bba 0x1be5 .lo,
  one 0x1be6 .mn, one 0x1be7 .mc, run 0x1be8 0x1be9 .mn, run 0x1bea 0x1bec .mc, one 0x1bed .mn,
  one 0x1bee .mc, run 0x1bef 0x1bf1 .mn, run 0x1bf2 0x1bf3 .mc, run 0x1bfc 0x1bff .po,
  run 0x1c00 0x1c23 .lo, run 0x1c24 0x1c2b .mc, run 0x1c2c 0x1c33 .mn, run 0x1c34 0x1c35 .mc,
  run 0x1c36 0x1c37 .mn, run 0x1c3b 0x1c3f .po, run 0x1c40 0x1c49 .nd, run 0x1c4d 0x1c4f .lo,
  run 0x1c50 0x1c59 .nd, run 0x1c5a 0x1c77 .lo, run 0x1c78 0x1c7d .lm, run 0x1c7e 0x1c7f .po,
  run 0x1c80 0x1c88 .ll, one 0x1c89 .lu, one 0x1c8a .ll, run 0x1c90 0x1cba .lu,
  run 0x1cbd 0x1cbf .lu, run 0x1cc0 0x1cc7 .po, run 0x1cd0 0x1cd2 .mn, one 0x1cd3 .po,
  run 0x1cd4 0x1ce0 .mn, one 0x1ce1 .mc, run 0x1ce2 0x1ce8 .mn, run 0x1ce9 0x1cec .lo,
  one 0x1ced .mn, run 0x1cee 0x1cf3 .lo, one 0x1cf4 .mn, run 0x1cf5 0x1cf6 .lo, one 0x1cf7 .mc,
  run 0x1cf8 0x1cf9 .mn, one 0x1cfa .lo]

/-- Runs of U+1D00 to U+2E7F: phonetic extensions, punctuation, symbols and mathematics. -/
def symbolRuns : List Run := [
  run 0x1d00 0x1d2b .ll, run 0x1d2c 0x1d6a .lm, run 0x1d6b 0x1d77 .ll, one 0x1d78 .lm,
  run 0x1d79 0x1d9a .ll, run 0x1d9b 0x1dbf .lm, run 0x1dc0 0x1dff .mn,
  pairs 0x1e00 0x1e95 .lu .ll, run 0x1e96 0x1e9d .ll, pairs 0x1e9e 0x1eff .lu .ll,
  run 0x1f00 0x1f07 .ll, run 0x1f08 0x1f0f .lu, run 0x1f10 0x1f15 .ll, run 0x1f18 0x1f1d .lu,
  run 0x1f20 0x1f27 .ll, run 0x1f28 0x1f2f .lu, run 0x1f30 0x1f37 .ll, run 0x1f38 0x1f3f .lu,
  run 0x1f40 0x1f45 .ll, run 0x1f48 0x1f4d .lu, run 0x1f50 0x1f57 .ll, one 0x1f59 .lu,
  one 0x1f5b .lu, one 0x1f5d .lu, one 0x1f5f .lu, run 0x1f60 0x1f67 .ll, run 0x1f68 0x1f6f .lu,
  run 0x1f70 0x1f7d .ll, run 0x1f80 0x1f87 .ll, run 0x1f88 0x1f8f .lt, run 0x1f90 0x1f97 .ll,
  run 0x1f98 0x1f9f .lt, run 0x1fa0 0x1fa7 .ll, run 0x1fa8 0x1faf .lt, run 0x1fb0 0x1fb4 .ll,
  run 0x1fb6 0x1fb7 .ll, run 0x1fb8 0x1fbb .lu, one 0x1fbc .lt, one 0x1fbd .sk, one 0x1fbe .ll,
  run 0x1fbf 0x1fc1 .sk, run 0x1fc2 0x1fc4 .ll, run 0x1fc6 0x1fc7 .ll, run 0x1fc8 0x1fcb .lu,
  one 0x1fcc .lt, run 0x1fcd 0x1fcf .sk, run 0x1fd0 0x1fd3 .ll, run 0x1fd6 0x1fd7 .ll,
  run 0x1fd8 0x1fdb .lu, run 0x1fdd 0x1fdf .sk, run 0x1fe0 0x1fe7 .ll, run 0x1fe8 0x1fec .lu,
  run 0x1fed 0x1fef .sk, run 0x1ff2 0x1ff4 .ll, run 0x1ff6 0x1ff7 .ll, run 0x1ff8 0x1ffb .lu,
  one 0x1ffc .lt, run 0x1ffd 0x1ffe .sk, run 0x2000 0x200a .zs, run 0x200b 0x200f .cf,
  run 0x2010 0x2015 .pd, run 0x2016 0x2017 .po, one 0x2018 .pi, one 0x2019 .pf, one 0x201a .ps,
  run 0x201b 0x201c .pi, one 0x201d .pf, one 0x201e .ps, one 0x201f .pi, run 0x2020 0x2027 .po,
  one 0x2028 .zl, one 0x2029 .zp, run 0x202a 0x202e .cf, one 0x202f .zs, run 0x2030 0x2038 .po,
  one 0x2039 .pi, one 0x203a .pf, run 0x203b 0x203e .po, run 0x203f 0x2040 .pc,
  run 0x2041 0x2043 .po, one 0x2044 .sm, one 0x2045 .ps, one 0x2046 .pe, run 0x2047 0x2051 .po,
  one 0x2052 .sm, one 0x2053 .po, one 0x2054 .pc, run 0x2055 0x205e .po, one 0x205f .zs,
  run 0x2060 0x2064 .cf, run 0x2066 0x206f .cf, one 0x2070 .no, one 0x2071 .lm,
  run 0x2074 0x2079 .no, run 0x207a 0x207c .sm, one 0x207d .ps, one 0x207e .pe, one 0x207f .lm,
  run 0x2080 0x2089 .no, run 0x208a 0x208c .sm, one 0x208d .ps, one 0x208e .pe,
  run 0x2090 0x209c .lm, run 0x20a0 0x20c1 .sc, run 0x20d0 0x20dc .mn, run 0x20dd 0x20e0 .me,
  one 0x20e1 .mn, run 0x20e2 0x20e4 .me, run 0x20e5 0x20f0 .mn, run 0x2100 0x2101 .so,
  one 0x2102 .lu, run 0x2103 0x2106 .so, one 0x2107 .lu, run 0x2108 0x2109 .so, one 0x210a .ll,
  run 0x210b 0x210d .lu, run 0x210e 0x210f .ll, run 0x2110 0x2112 .lu, one 0x2113 .ll,
  one 0x2114 .so, one 0x2115 .lu, run 0x2116 0x2117 .so, one 0x2118 .sm, run 0x2119 0x211d .lu,
  run 0x211e 0x2123 .so, one 0x2124 .lu, one 0x2125 .so, one 0x2126 .lu, one 0x2127 .so,
  one 0x2128 .lu, one 0x2129 .so, run 0x212a 0x212d .lu, one 0x212e .so, one 0x212f .ll,
  run 0x2130 0x2133 .lu, one 0x2134 .ll, run 0x2135 0x2138 .lo, one 0x2139 .ll,
  run 0x213a 0x213b .so, run 0x213c 0x213d .ll, run 0x213e 0x213f .lu, run 0x2140 0x2144 .sm,
  one 0x2145 .lu, run 0x2146 0x2149 .ll, one 0x214a .so, one 0x214b .sm, run 0x214c 0x214d .so,
  one 0x214e .ll, one 0x214f .so, run 0x2150 0x215f .no, run 0x2160 0x2182 .nl, one 0x2183 .lu,
  one 0x2184 .ll, run 0x2185 0x2188 .nl, one 0x2189 .no, run 0x218a 0x218b .so,
  run 0x2190 0x2194 .sm, run 0x2195 0x2199 .so, run 0x219a 0x219b .sm, run 0x219c 0x219f .so,
  one 0x21a0 .sm, run 0x21a1 0x21a2 .so, one 0x21a3 .sm, run 0x21a4 0x21a5 .so, one 0x21a6 .sm,
  run 0x21a7 0x21ad .so, one 0x21ae .sm, run 0x21af 0x21cd .so, run 0x21ce 0x21cf .sm,
  run 0x21d0 0x21d1 .so, one 0x21d2 .sm, one 0x21d3 .so, one 0x21d4 .sm, run 0x21d5 0x21f3 .so,
  run 0x21f4 0x22ff .sm, run 0x2300 0x2307 .so, one 0x2308 .ps, one 0x2309 .pe, one 0x230a .ps,
  one 0x230b .pe, run 0x230c 0x231f .so, run 0x2320 0x2321 .sm, run 0x2322 0x2328 .so,
  one 0x2329 .ps, one 0x232a .pe, run 0x232b 0x237b .so, one 0x237c .sm, run 0x237d 0x239a .so,
  run 0x239b 0x23b3 .sm, run 0x23b4 0x23db .so, run 0x23dc 0x23e1 .sm, run 0x23e2 0x2429 .so,
  run 0x2440 0x244a .so, run 0x2460 0x249b .no, run 0x249c 0x24e9 .so, run 0x24ea 0x24ff .no,
  run 0x2500 0x25b6 .so, one 0x25b7 .sm, run 0x25b8 0x25c0 .so, one 0x25c1 .sm,
  run 0x25c2 0x25f7 .so, run 0x25f8 0x25ff .sm, run 0x2600 0x266e .so, one 0x266f .sm,
  run 0x2670 0x2767 .so, one 0x2768 .ps, one 0x2769 .pe, one 0x276a .ps, one 0x276b .pe,
  one 0x276c .ps, one 0x276d .pe, one 0x276e .ps, one 0x276f .pe, one 0x2770 .ps,
  one 0x2771 .pe, one 0x2772 .ps, one 0x2773 .pe, one 0x2774 .ps, one 0x2775 .pe,
  run 0x2776 0x2793 .no, run 0x2794 0x27bf .so, run 0x27c0 0x27c4 .sm, one 0x27c5 .ps,
  one 0x27c6 .pe, run 0x27c7 0x27e5 .sm, one 0x27e6 .ps, one 0x27e7 .pe, one 0x27e8 .ps,
  one 0x27e9 .pe, one 0x27ea .ps, one 0x27eb .pe, one 0x27ec .ps, one 0x27ed .pe,
  one 0x27ee .ps, one 0x27ef .pe, run 0x27f0 0x27ff .sm, run 0x2800 0x28ff .so,
  run 0x2900 0x2982 .sm, one 0x2983 .ps, one 0x2984 .pe, one 0x2985 .ps, one 0x2986 .pe,
  one 0x2987 .ps, one 0x2988 .pe, one 0x2989 .ps, one 0x298a .pe, one 0x298b .ps,
  one 0x298c .pe, one 0x298d .ps, one 0x298e .pe, one 0x298f .ps, one 0x2990 .pe,
  one 0x2991 .ps, one 0x2992 .pe, one 0x2993 .ps, one 0x2994 .pe, one 0x2995 .ps,
  one 0x2996 .pe, one 0x2997 .ps, one 0x2998 .pe, run 0x2999 0x29d7 .sm, one 0x29d8 .ps,
  one 0x29d9 .pe, one 0x29da .ps, one 0x29db .pe, run 0x29dc 0x29fb .sm, one 0x29fc .ps,
  one 0x29fd .pe, run 0x29fe 0x2aff .sm, run 0x2b00 0x2b2f .so, run 0x2b30 0x2b44 .sm,
  run 0x2b45 0x2b46 .so, run 0x2b47 0x2b4c .sm, run 0x2b4d 0x2b73 .so, run 0x2b76 0x2bff .so,
  run 0x2c00 0x2c2f .lu, run 0x2c30 0x2c5f .ll, one 0x2c60 .lu, one 0x2c61 .ll,
  run 0x2c62 0x2c64 .lu, run 0x2c65 0x2c66 .ll, pairs 0x2c67 0x2c6d .lu .ll,
  run 0x2c6e 0x2c70 .lu, one 0x2c71 .ll, one 0x2c72 .lu, run 0x2c73 0x2c74 .ll, one 0x2c75 .lu,
  run 0x2c76 0x2c7b .ll, run 0x2c7c 0x2c7d .lm, run 0x2c7e 0x2c80 .lu,
  pairs 0x2c81 0x2ce3 .ll .lu, one 0x2ce4 .ll, run 0x2ce5 0x2cea .so,
  pairs 0x2ceb 0x2cee .lu .ll, run 0x2cef 0x2cf1 .mn, one 0x2cf2 .lu, one 0x2cf3 .ll,
  run 0x2cf9 0x2cfc .po, one 0x2cfd .no, run 0x2cfe 0x2cff .po, run 0x2d00 0x2d25 .ll,
  one 0x2d27 .ll, one 0x2d2d .ll, run 0x2d30 0x2d67 .lo, one 0x2d6f .lm, one 0x2d70 .po,
  one 0x2d7f .mn, run 0x2d80 0x2d96 .lo, run 0x2da0 0x2da6 .lo, run 0x2da8 0x2dae .lo,
  run 0x2db0 0x2db6 .lo, run 0x2db8 0x2dbe .lo, run 0x2dc0 0x2dc6 .lo, run 0x2dc8 0x2dce .lo,
  run 0x2dd0 0x2dd6 .lo, run 0x2dd8 0x2dde .lo, run 0x2de0 0x2dff .mn, run 0x2e00 0x2e01 .po,
  one 0x2e02 .pi, one 0x2e03 .pf, one 0x2e04 .pi, one 0x2e05 .pf, run 0x2e06 0x2e08 .po,
  one 0x2e09 .pi, one 0x2e0a .pf, one 0x2e0b .po, one 0x2e0c .pi, one 0x2e0d .pf,
  run 0x2e0e 0x2e16 .po, one 0x2e17 .pd, run 0x2e18 0x2e19 .po, one 0x2e1a .pd, one 0x2e1b .po,
  one 0x2e1c .pi, one 0x2e1d .pf, run 0x2e1e 0x2e1f .po, one 0x2e20 .pi, one 0x2e21 .pf,
  one 0x2e22 .ps, one 0x2e23 .pe, one 0x2e24 .ps, one 0x2e25 .pe, one 0x2e26 .ps,
  one 0x2e27 .pe, one 0x2e28 .ps, one 0x2e29 .pe, run 0x2e2a 0x2e2e .po, one 0x2e2f .lm,
  run 0x2e30 0x2e39 .po, run 0x2e3a 0x2e3b .pd, run 0x2e3c 0x2e3f .po, one 0x2e40 .pd,
  one 0x2e41 .po, one 0x2e42 .ps, run 0x2e43 0x2e4f .po, run 0x2e50 0x2e51 .so,
  run 0x2e52 0x2e54 .po, one 0x2e55 .ps, one 0x2e56 .pe, one 0x2e57 .ps, one 0x2e58 .pe,
  one 0x2e59 .ps, one 0x2e5a .pe, one 0x2e5b .ps, one 0x2e5c .pe, one 0x2e5d .pd]

/-- Runs of U+2E80 to U+FFFF: the rest of the basic plane. -/
def eastAsianRuns : List Run := [
  run 0x2e80 0x2e99 .so, run 0x2e9b 0x2ef3 .so, run 0x2f00 0x2fd5 .so, run 0x2ff0 0x2fff .so,
  one 0x3000 .zs, run 0x3001 0x3003 .po, one 0x3004 .so, one 0x3005 .lm, one 0x3006 .lo,
  one 0x3007 .nl, one 0x3008 .ps, one 0x3009 .pe, one 0x300a .ps, one 0x300b .pe,
  one 0x300c .ps, one 0x300d .pe, one 0x300e .ps, one 0x300f .pe, one 0x3010 .ps,
  one 0x3011 .pe, run 0x3012 0x3013 .so, one 0x3014 .ps, one 0x3015 .pe, one 0x3016 .ps,
  one 0x3017 .pe, one 0x3018 .ps, one 0x3019 .pe, one 0x301a .ps, one 0x301b .pe,
  one 0x301c .pd, one 0x301d .ps, run 0x301e 0x301f .pe, one 0x3020 .so, run 0x3021 0x3029 .nl,
  run 0x302a 0x302d .mn, run 0x302e 0x302f .mc, one 0x3030 .pd, run 0x3031 0x3035 .lm,
  run 0x3036 0x3037 .so, run 0x3038 0x303a .nl, one 0x303b .lm, one 0x303c .lo, one 0x303d .po,
  run 0x303e 0x303f .so, run 0x3041 0x3096 .lo, run 0x3099 0x309a .mn, run 0x309b 0x309c .sk,
  run 0x309d 0x309e .lm, one 0x309f .lo, one 0x30a0 .pd, run 0x30a1 0x30fa .lo, one 0x30fb .po,
  run 0x30fc 0x30fe .lm, one 0x30ff .lo, run 0x3105 0x312f .lo, run 0x3131 0x318e .lo,
  run 0x3190 0x3191 .so, run 0x3192 0x3195 .no, run 0x3196 0x319f .so, run 0x31a0 0x31bf .lo,
  run 0x31c0 0x31e5 .so, one 0x31ef .so, run 0x31f0 0x31ff .lo, run 0x3200 0x321e .so,
  run 0x3220 0x3229 .no, run 0x322a 0x3247 .so, run 0x3248 0x324f .no, one 0x3250 .so,
  run 0x3251 0x325f .no, run 0x3260 0x327f .so, run 0x3280 0x3289 .no, run 0x328a 0x32b0 .so,
  run 0x32b1 0x32bf .no, run 0x32c0 0x33ff .so, run 0x3400 0x4dbf .lo, run 0x4dc0 0x4dff .so,
  run 0x4e00 0xa014 .lo, one 0xa015 .lm, run 0xa016 0xa48c .lo, run 0xa490 0xa4c6 .so,
  run 0xa4d0 0xa4f7 .lo, run 0xa4f8 0xa4fd .lm, run 0xa4fe 0xa4ff .po, run 0xa500 0xa60b .lo,
  one 0xa60c .lm, run 0xa60d 0xa60f .po, run 0xa610 0xa61f .lo, run 0xa620 0xa629 .nd,
  run 0xa62a 0xa62b .lo, pairs 0xa640 0xa66d .lu .ll, one 0xa66e .lo, one 0xa66f .mn,
  run 0xa670 0xa672 .me, one 0xa673 .po, run 0xa674 0xa67d .mn, one 0xa67e .po, one 0xa67f .lm,
  pairs 0xa680 0xa69b .lu .ll, run 0xa69c 0xa69d .lm, run 0xa69e 0xa69f .mn,
  run 0xa6a0 0xa6e5 .lo, run 0xa6e6 0xa6ef .nl, run 0xa6f0 0xa6f1 .mn, run 0xa6f2 0xa6f7 .po,
  run 0xa700 0xa716 .sk, run 0xa717 0xa71f .lm, run 0xa720 0xa721 .sk,
  pairs 0xa722 0xa72f .lu .ll, run 0xa730 0xa731 .ll, pairs 0xa732 0xa76f .lu .ll,
  one 0xa770 .lm, run 0xa771 0xa778 .ll, pairs 0xa779 0xa77d .lu .ll,
  pairs 0xa77e 0xa787 .lu .ll, one 0xa788 .lm, run 0xa789 0xa78a .sk,
  pairs 0xa78b 0xa78e .lu .ll, one 0xa78f .lo, pairs 0xa790 0xa793 .lu .ll,
  run 0xa794 0xa795 .ll, pairs 0xa796 0xa7aa .lu .ll, run 0xa7ab 0xa7ae .lu, one 0xa7af .ll,
  run 0xa7b0 0xa7b4 .lu, pairs 0xa7b5 0xa7c4 .ll .lu, run 0xa7c5 0xa7c7 .lu,
  pairs 0xa7c8 0xa7cb .ll .lu, pairs 0xa7cc 0xa7dc .lu .ll, run 0xa7f1 0xa7f4 .lm,
  one 0xa7f5 .lu, one 0xa7f6 .ll, one 0xa7f7 .lo, run 0xa7f8 0xa7f9 .lm, one 0xa7fa .ll,
  run 0xa7fb 0xa801 .lo, one 0xa802 .mn, run 0xa803 0xa805 .lo, one 0xa806 .mn,
  run 0xa807 0xa80a .lo, one 0xa80b .mn, run 0xa80c 0xa822 .lo, run 0xa823 0xa824 .mc,
  run 0xa825 0xa826 .mn, one 0xa827 .mc, run 0xa828 0xa82b .so, one 0xa82c .mn,
  run 0xa830 0xa835 .no, run 0xa836 0xa837 .so, one 0xa838 .sc, one 0xa839 .so,
  run 0xa840 0xa873 .lo, run 0xa874 0xa877 .po, run 0xa880 0xa881 .mc, run 0xa882 0xa8b3 .lo,
  run 0xa8b4 0xa8c3 .mc, run 0xa8c4 0xa8c5 .mn, run 0xa8ce 0xa8cf .po, run 0xa8d0 0xa8d9 .nd,
  run 0xa8e0 0xa8f1 .mn, run 0xa8f2 0xa8f7 .lo, run 0xa8f8 0xa8fa .po, one 0xa8fb .lo,
  one 0xa8fc .po, run 0xa8fd 0xa8fe .lo, one 0xa8ff .mn, run 0xa900 0xa909 .nd,
  run 0xa90a 0xa925 .lo, run 0xa926 0xa92d .mn, run 0xa92e 0xa92f .po, run 0xa930 0xa946 .lo,
  run 0xa947 0xa951 .mn, run 0xa952 0xa953 .mc, one 0xa95f .po, run 0xa960 0xa97c .lo,
  run 0xa980 0xa982 .mn, one 0xa983 .mc, run 0xa984 0xa9b2 .lo, one 0xa9b3 .mn,
  run 0xa9b4 0xa9b5 .mc, run 0xa9b6 0xa9b9 .mn, run 0xa9ba 0xa9bb .mc, run 0xa9bc 0xa9bd .mn,
  run 0xa9be 0xa9c0 .mc, run 0xa9c1 0xa9cd .po, one 0xa9cf .lm, run 0xa9d0 0xa9d9 .nd,
  run 0xa9de 0xa9df .po, run 0xa9e0 0xa9e4 .lo, one 0xa9e5 .mn, one 0xa9e6 .lm,
  run 0xa9e7 0xa9ef .lo, run 0xa9f0 0xa9f9 .nd, run 0xa9fa 0xa9fe .lo, run 0xaa00 0xaa28 .lo,
  run 0xaa29 0xaa2e .mn, run 0xaa2f 0xaa30 .mc, run 0xaa31 0xaa32 .mn, run 0xaa33 0xaa34 .mc,
  run 0xaa35 0xaa36 .mn, run 0xaa40 0xaa42 .lo, one 0xaa43 .mn, run 0xaa44 0xaa4b .lo,
  one 0xaa4c .mn, one 0xaa4d .mc, run 0xaa50 0xaa59 .nd, run 0xaa5c 0xaa5f .po,
  run 0xaa60 0xaa6f .lo, one 0xaa70 .lm, run 0xaa71 0xaa76 .lo, run 0xaa77 0xaa79 .so,
  one 0xaa7a .lo, one 0xaa7b .mc, one 0xaa7c .mn, one 0xaa7d .mc, run 0xaa7e 0xaaaf .lo,
  one 0xaab0 .mn, one 0xaab1 .lo, run 0xaab2 0xaab4 .mn, run 0xaab5 0xaab6 .lo,
  run 0xaab7 0xaab8 .mn, run 0xaab9 0xaabd .lo, run 0xaabe 0xaabf .mn, one 0xaac0 .lo,
  one 0xaac1 .mn, one 0xaac2 .lo, run 0xaadb 0xaadc .lo, one 0xaadd .lm, run 0xaade 0xaadf .po,
  run 0xaae0 0xaaea .lo, one 0xaaeb .mc, run 0xaaec 0xaaed .mn, run 0xaaee 0xaaef .mc,
  run 0xaaf0 0xaaf1 .po, one 0xaaf2 .lo, run 0xaaf3 0xaaf4 .lm, one 0xaaf5 .mc, one 0xaaf6 .mn,
  run 0xab01 0xab06 .lo, run 0xab09 0xab0e .lo, run 0xab11 0xab16 .lo, run 0xab20 0xab26 .lo,
  run 0xab28 0xab2e .lo, run 0xab30 0xab5a .ll, one 0xab5b .sk, run 0xab5c 0xab5f .lm,
  run 0xab60 0xab68 .ll, one 0xab69 .lm, run 0xab6a 0xab6b .sk, run 0xab70 0xabbf .ll,
  run 0xabc0 0xabe2 .lo, run 0xabe3 0xabe4 .mc, one 0xabe5 .mn, run 0xabe6 0xabe7 .mc,
  one 0xabe8 .mn, run 0xabe9 0xabea .mc, one 0xabeb .po, one 0xabec .mc, one 0xabed .mn,
  run 0xabf0 0xabf9 .nd, run 0xac00 0xd7a3 .lo, run 0xd7b0 0xd7c6 .lo, run 0xd7cb 0xd7fb .lo,
  run 0xd800 0xdfff .cs, run 0xe000 0xf8ff .co, run 0xf900 0xfa6d .lo, run 0xfa70 0xfad9 .lo,
  run 0xfb00 0xfb06 .ll, run 0xfb13 0xfb17 .ll, one 0xfb1d .lo, one 0xfb1e .mn,
  run 0xfb1f 0xfb28 .lo, one 0xfb29 .sm, run 0xfb2a 0xfb36 .lo, run 0xfb38 0xfb3c .lo,
  one 0xfb3e .lo, run 0xfb40 0xfb41 .lo, run 0xfb43 0xfb44 .lo, run 0xfb46 0xfbb1 .lo,
  run 0xfbb2 0xfbc2 .sk, run 0xfbc3 0xfbd2 .so, run 0xfbd3 0xfd3d .lo, one 0xfd3e .pe,
  one 0xfd3f .ps, run 0xfd40 0xfd4f .so, run 0xfd50 0xfd8f .lo, run 0xfd90 0xfd91 .so,
  run 0xfd92 0xfdc7 .lo, run 0xfdc8 0xfdcf .so, run 0xfdf0 0xfdfb .lo, one 0xfdfc .sc,
  run 0xfdfd 0xfdff .so, run 0xfe00 0xfe0f .mn, run 0xfe10 0xfe16 .po, one 0xfe17 .ps,
  one 0xfe18 .pe, one 0xfe19 .po, run 0xfe20 0xfe2f .mn, one 0xfe30 .po, run 0xfe31 0xfe32 .pd,
  run 0xfe33 0xfe34 .pc, one 0xfe35 .ps, one 0xfe36 .pe, one 0xfe37 .ps, one 0xfe38 .pe,
  one 0xfe39 .ps, one 0xfe3a .pe, one 0xfe3b .ps, one 0xfe3c .pe, one 0xfe3d .ps,
  one 0xfe3e .pe, one 0xfe3f .ps, one 0xfe40 .pe, one 0xfe41 .ps, one 0xfe42 .pe,
  one 0xfe43 .ps, one 0xfe44 .pe, run 0xfe45 0xfe46 .po, one 0xfe47 .ps, one 0xfe48 .pe,
  run 0xfe49 0xfe4c .po, run 0xfe4d 0xfe4f .pc, run 0xfe50 0xfe52 .po, run 0xfe54 0xfe57 .po,
  one 0xfe58 .pd, one 0xfe59 .ps, one 0xfe5a .pe, one 0xfe5b .ps, one 0xfe5c .pe,
  one 0xfe5d .ps, one 0xfe5e .pe, run 0xfe5f 0xfe61 .po, one 0xfe62 .sm, one 0xfe63 .pd,
  run 0xfe64 0xfe66 .sm, one 0xfe68 .po, one 0xfe69 .sc, run 0xfe6a 0xfe6b .po,
  run 0xfe70 0xfe74 .lo, run 0xfe76 0xfefc .lo, one 0xfeff .cf, run 0xff01 0xff03 .po,
  one 0xff04 .sc, run 0xff05 0xff07 .po, one 0xff08 .ps, one 0xff09 .pe, one 0xff0a .po,
  one 0xff0b .sm, one 0xff0c .po, one 0xff0d .pd, run 0xff0e 0xff0f .po, run 0xff10 0xff19 .nd,
  run 0xff1a 0xff1b .po, run 0xff1c 0xff1e .sm, run 0xff1f 0xff20 .po, run 0xff21 0xff3a .lu,
  one 0xff3b .ps, one 0xff3c .po, one 0xff3d .pe, one 0xff3e .sk, one 0xff3f .pc,
  one 0xff40 .sk, run 0xff41 0xff5a .ll, one 0xff5b .ps, one 0xff5c .sm, one 0xff5d .pe,
  one 0xff5e .sm, one 0xff5f .ps, one 0xff60 .pe, one 0xff61 .po, one 0xff62 .ps,
  one 0xff63 .pe, run 0xff64 0xff65 .po, run 0xff66 0xff6f .lo, one 0xff70 .lm,
  run 0xff71 0xff9d .lo, run 0xff9e 0xff9f .lm, run 0xffa0 0xffbe .lo, run 0xffc2 0xffc7 .lo,
  run 0xffca 0xffcf .lo, run 0xffd2 0xffd7 .lo, run 0xffda 0xffdc .lo, run 0xffe0 0xffe1 .sc,
  one 0xffe2 .sm, one 0xffe3 .sk, one 0xffe4 .so, run 0xffe5 0xffe6 .sc, one 0xffe8 .so,
  run 0xffe9 0xffec .sm, run 0xffed 0xffee .so, run 0xfff9 0xfffb .cf, run 0xfffc 0xfffd .so]

/-- Runs of U+10000 to U+10FFF: historic scripts. -/
def ancientRuns : List Run := [
  run 0x10000 0x1000b .lo, run 0x1000d 0x10026 .lo, run 0x10028 0x1003a .lo,
  run 0x1003c 0x1003d .lo, run 0x1003f 0x1004d .lo, run 0x10050 0x1005d .lo,
  run 0x10080 0x100fa .lo, run 0x10100 0x10102 .po, run 0x10107 0x10133 .no,
  run 0x10137 0x1013f .so, run 0x10140 0x10174 .nl, run 0x10175 0x10178 .no,
  run 0x10179 0x10189 .so, run 0x1018a 0x1018b .no, run 0x1018c 0x1018e .so,
  run 0x10190 0x1019c .so, one 0x101a0 .so, run 0x101d0 0x101fc .so, one 0x101fd .mn,
  run 0x10280 0x1029c .lo, run 0x102a0 0x102d0 .lo, one 0x102e0 .mn, run 0x102e1 0x102fb .no,
  run 0x10300 0x1031f .lo, run 0x10320 0x10323 .no, run 0x1032d 0x10340 .lo, one 0x10341 .nl,
  run 0x10342 0x10349 .lo, one 0x1034a .nl, run 0x10350 0x10375 .lo, run 0x10376 0x1037a .mn,
  run 0x10380 0x1039d .lo, one 0x1039f .po, run 0x103a0 0x103c3 .lo, run 0x103c8 0x103cf .lo,
  one 0x103d0 .po, run 0x103d1 0x103d5 .nl, run 0x10400 0x10427 .lu, run 0x10428 0x1044f .ll,
  run 0x10450 0x1049d .lo, run 0x104a0 0x104a9 .nd, run 0x104b0 0x104d3 .lu,
  run 0x104d8 0x104fb .ll, run 0x10500 0x10527 .lo, run 0x10530 0x10563 .lo, one 0x1056f .po,
  run 0x10570 0x1057a .lu, run 0x1057c 0x1058a .lu, run 0x1058c 0x10592 .lu,
  run 0x10594 0x10595 .lu, run 0x10597 0x105a1 .ll, run 0x105a3 0x105b1 .ll,
  run 0x105b3 0x105b9 .ll, run 0x105bb 0x105bc .ll, run 0x105c0 0x105f3 .lo,
  run 0x10600 0x10736 .lo, run 0x10740 0x10755 .lo, run 0x10760 0x10767 .lo,
  run 0x10780 0x10785 .lm, run 0x10787 0x107b0 .lm, run 0x107b2 0x107ba .lm,
  run 0x10800 0x10805 .lo, one 0x10808 .lo, run 0x1080a 0x10835 .lo, run 0x10837 0x10838 .lo,
  one 0x1083c .lo, run 0x1083f 0x10855 .lo, one 0x10857 .po, run 0x10858 0x1085f .no,
  run 0x10860 0x10876 .lo, run 0x10877 0x10878 .so, run 0x10879 0x1087f .no,
  run 0x10880 0x1089e .lo, run 0x108a7 0x108af .no, run 0x108e0 0x108f2 .lo,
  run 0x108f4 0x108f5 .lo, run 0x108fb 0x108ff .no, run 0x10900 0x10915 .lo,
  run 0x10916 0x1091b .no, one 0x1091f .po, run 0x10920 0x10939 .lo, one 0x1093f .po,
  run 0x10940 0x10959 .lo, run 0x10980 0x109b7 .lo, run 0x109bc 0x109bd .no,
  run 0x109be 0x109bf .lo, run 0x109c0 0x109cf .no, run 0x109d2 0x109ff .no, one 0x10a00 .lo,
  run 0x10a01 0x10a03 .mn, run 0x10a05 0x10a06 .mn, run 0x10a0c 0x10a0f .mn,
  run 0x10a10 0x10a13 .lo, run 0x10a15 0x10a17 .lo, run 0x10a19 0x10a35 .lo,
  run 0x10a38 0x10a3a .mn, one 0x10a3f .mn, run 0x10a40 0x10a48 .no, run 0x10a50 0x10a58 .po,
  run 0x10a60 0x10a7c .lo, run 0x10a7d 0x10a7e .no, one 0x10a7f .po, run 0x10a80 0x10a9c .lo,
  run 0x10a9d 0x10a9f .no, run 0x10ac0 0x10ac7 .lo, one 0x10ac8 .so, run 0x10ac9 0x10ae4 .lo,
  run 0x10ae5 0x10ae6 .mn, run 0x10aeb 0x10aef .no, run 0x10af0 0x10af6 .po,
  run 0x10b00 0x10b35 .lo, run 0x10b39 0x10b3f .po, run 0x10b40 0x10b55 .lo,
  run 0x10b58 0x10b5f .no, run 0x10b60 0x10b72 .lo, run 0x10b78 0x10b7f .no,
  run 0x10b80 0x10b91 .lo, run 0x10b99 0x10b9c .po, run 0x10ba9 0x10baf .no,
  run 0x10c00 0x10c48 .lo, run 0x10c80 0x10cb2 .lu, run 0x10cc0 0x10cf2 .ll,
  run 0x10cfa 0x10cff .no, run 0x10d00 0x10d23 .lo, run 0x10d24 0x10d27 .mn,
  run 0x10d30 0x10d39 .nd, run 0x10d40 0x10d49 .nd, run 0x10d4a 0x10d4d .lo, one 0x10d4e .lm,
  one 0x10d4f .lo, run 0x10d50 0x10d65 .lu, run 0x10d69 0x10d6d .mn, one 0x10d6e .pd,
  one 0x10d6f .lm, run 0x10d70 0x10d85 .ll, run 0x10d8e 0x10d8f .sm, run 0x10e60 0x10e7e .no,
  run 0x10e80 0x10ea9 .lo, run 0x10eab 0x10eac .mn, one 0x10ead .pd, run 0x10eb0 0x10eb1 .lo,
  run 0x10ec2 0x10ec4 .lo, one 0x10ec5 .lm, run 0x10ec6 0x10ec7 .lo, one 0x10ed0 .po,
  run 0x10ed1 0x10ed8 .so, run 0x10efa 0x10eff .mn, run 0x10f00 0x10f1c .lo,
  run 0x10f1d 0x10f26 .no, one 0x10f27 .lo, run 0x10f30 0x10f45 .lo, run 0x10f46 0x10f50 .mn,
  run 0x10f51 0x10f54 .no, run 0x10f55 0x10f59 .po, run 0x10f70 0x10f81 .lo,
  run 0x10f82 0x10f85 .mn, run 0x10f86 0x10f89 .po, run 0x10fb0 0x10fc4 .lo,
  run 0x10fc5 0x10fcb .no, run 0x10fe0 0x10ff6 .lo]

/-- Runs of U+11000 to U+15FFF: Brahmic scripts, cuneiform and hieroglyphs. -/
def modernRuns : List Run := [
  one 0x11000 .mc, one 0x11001 .mn, one 0x11002 .mc, run 0x11003 0x11037 .lo,
  run 0x11038 0x11046 .mn, run 0x11047 0x1104d .po, run 0x11052 0x11065 .no,
  run 0x11066 0x1106f .nd, one 0x11070 .mn, run 0x11071 0x11072 .lo, run 0x11073 0x11074 .mn,
  one 0x11075 .lo, run 0x1107f 0x11081 .mn, one 0x11082 .mc, run 0x11083 0x110af .lo,
  run 0x110b0 0x110b2 .mc, run 0x110b3 0x110b6 .mn, run 0x110b7 0x110b8 .mc,
  run 0x110b9 0x110ba .mn, run 0x110bb 0x110bc .po, one 0x110bd .cf, run 0x110be 0x110c1 .po,
  one 0x110c2 .mn, one 0x110cd .cf, run 0x110d0 0x110e8 .lo, run 0x110f0 0x110f9 .nd,
  run 0x11100 0x11102 .mn, run 0x11103 0x11126 .lo, run 0x11127 0x1112b .mn, one 0x1112c .mc,
  run 0x1112d 0x11134 .mn, run 0x11136 0x1113f .nd, run 0x11140 0x11143 .po, one 0x11144 .lo,
  run 0x11145 0x11146 .mc, one 0x11147 .lo, run 0x11150 0x11172 .lo, one 0x11173 .mn,
  run 0x11174 0x11175 .po, one 0x11176 .lo, run 0x11180 0x11181 .mn, one 0x11182 .mc,
  run 0x11183 0x111b2 .lo, run 0x111b3 0x111b5 .mc, run 0x111b6 0x111be .mn,
  run 0x111bf 0x111c0 .mc, run 0x111c1 0x111c4 .lo, run 0x111c5 0x111c8 .po,
  run 0x111c9 0x111cc .mn, one 0x111cd .po, one 0x111ce .mc, one 0x111cf .mn,
  run 0x111d0 0x111d9 .nd, one 0x111da .lo, one 0x111db .po, one 0x111dc .lo,
  run 0x111dd 0x111df .po, run 0x111e1 0x111f4 .no, run 0x11200 0x11211 .lo,
  run 0x11213 0x1122b .lo, run 0x1122c 0x1122e .mc, run 0x1122f 0x11231 .mn,
  run 0x11232 0x11233 .mc, one 0x11234 .mn, one 0x11235 .mc, run 0x11236 0x11237 .mn,
  run 0x11238 0x1123d .po, one 0x1123e .mn, run 0x1123f 0x11240 .lo, one 0x11241 .mn,
  run 0x11280 0x11286 .lo, one 0x11288 .lo, run 0x1128a 0x1128d .lo, run 0x1128f 0x1129d .lo,
  run 0x1129f 0x112a8 .lo, one 0x112a9 .po, run 0x112b0 0x112de .lo, one 0x112df .mn,
  run 0x112e0 0x112e2 .mc, run 0x112e3 0x112ea .mn, run 0x112f0 0x112f9 .nd,
  run 0x11300 0x11301 .mn, run 0x11302 0x11303 .mc, run 0x11305 0x1130c .lo,
  run 0x1130f 0x11310 .lo, run 0x11313 0x11328 .lo, run 0x1132a 0x11330 .lo,
  run 0x11332 0x11333 .lo, run 0x11335 0x11339 .lo, run 0x1133b 0x1133c .mn, one 0x1133d .lo,
  run 0x1133e 0x1133f .mc, one 0x11340 .mn, run 0x11341 0x11344 .mc, run 0x11347 0x11348 .mc,
  run 0x1134b 0x1134d .mc, one 0x11350 .lo, one 0x11357 .mc, run 0x1135d 0x11361 .lo,
  run 0x11362 0x11363 .mc, run 0x11366 0x1136c .mn, run 0x11370 0x11374 .mn,
  run 0x11380 0x11389 .lo, one 0x1138b .lo, one 0x1138e .lo, run 0x11390 0x113b5 .lo,
  one 0x113b7 .lo, run 0x113b8 0x113ba .mc, run 0x113bb 0x113c0 .mn, one 0x113c2 .mc,
  one 0x113c5 .mc, run 0x113c7 0x113ca .mc, run 0x113cc 0x113cd .mc, one 0x113ce .mn,
  one 0x113cf .mc, one 0x113d0 .mn, one 0x113d1 .lo, one 0x113d2 .mn, one 0x113d3 .lo,
  run 0x113d4 0x113d5 .po, run 0x113d7 0x113d8 .po, run 0x113e1 0x113e2 .mn,
  run 0x11400 0x11434 .lo, run 0x11435 0x11437 .mc, run 0x11438 0x1143f .mn,
  run 0x11440 0x11441 .mc, run 0x11442 0x11444 .mn, one 0x11445 .mc, one 0x11446 .mn,
  run 0x11447 0x1144a .lo, run 0x1144b 0x1144f .po, run 0x11450 0x11459 .nd,
  run 0x1145a 0x1145b .po, one 0x1145d .po, one 0x1145e .mn, run 0x1145f 0x11461 .lo,
  run 0x11480 0x114af .lo, run 0x114b0 0x114b2 .mc, run 0x114b3 0x114b8 .mn, one 0x114b9 .mc,
  one 0x114ba .mn, run 0x114bb 0x114be .mc, run 0x114bf 0x114c0 .mn, one 0x114c1 .mc,
  run 0x114c2 0x114c3 .mn, run 0x114c4 0x114c5 .lo, one 0x114c6 .po, one 0x114c7 .lo,
  run 0x114d0 0x114d9 .nd, run 0x11580 0x115ae .lo, run 0x115af 0x115b1 .mc,
  run 0x115b2 0x115b5 .mn, run 0x115b8 0x115bb .mc, run 0x115bc 0x115bd .mn, one 0x115be .mc,
  run 0x115bf 0x115c0 .mn, run 0x115c1 0x115d7 .po, run 0x115d8 0x115db .lo,
  run 0x115dc 0x115dd .mn, run 0x11600 0x1162f .lo, run 0x11630 0x11632 .mc,
  run 0x11633 0x1163a .mn, run 0x1163b 0x1163c .mc, one 0x1163d .mn, one 0x1163e .mc,
  run 0x1163f 0x11640 .mn, run 0x11641 0x11643 .po, one 0x11644 .lo, run 0x11650 0x11659 .nd,
  run 0x11660 0x1166c .po, run 0x11680 0x116aa .lo, one 0x116ab .mn, one 0x116ac .mc,
  one 0x116ad .mn, run 0x116ae 0x116af .mc, run 0x116b0 0x116b5 .mn, one 0x116b6 .mc,
  one 0x116b7 .mn, one 0x116b8 .lo, one 0x116b9 .po, run 0x116c0 0x116c9 .nd,
  run 0x116d0 0x116e3 .nd, run 0x11700 0x1171a .lo, one 0x1171d .mn, one 0x1171e .mc,
  one 0x1171f .mn, run 0x11720 0x11721 .mc, run 0x11722 0x11725 .mn, one 0x11726 .mc,
  run 0x11727 0x1172b .mn, run 0x11730 0x11739 .nd, run 0x1173a 0x1173b .no,
  run 0x1173c 0x1173e .po, one 0x1173f .so, run 0x11740 0x11746 .lo, run 0x11800 0x1182b .lo,
  run 0x1182c 0x1182e .mc, run 0x1182f 0x11837 .mn, one 0x11838 .mc, run 0x11839 0x1183a .mn,
  one 0x1183b .po, run 0x118a0 0x118bf .lu, run 0x118c0 0x118df .ll, run 0x118e0 0x118e9 .nd,
  run 0x118ea 0x118f2 .no, run 0x118ff 0x11906 .lo, one 0x11909 .lo, run 0x1190c 0x11913 .lo,
  run 0x11915 0x11916 .lo, run 0x11918 0x1192f .lo, run 0x11930 0x11935 .mc,
  run 0x11937 0x11938 .mc, run 0x1193b 0x1193c .mn, one 0x1193d .mc, one 0x1193e .mn,
  one 0x1193f .lo, one 0x11940 .mc, one 0x11941 .lo, one 0x11942 .mc, one 0x11943 .mn,
  run 0x11944 0x11946 .po, run 0x11950 0x11959 .nd, run 0x119a0 0x119a7 .lo,
  run 0x119aa 0x119d0 .lo, run 0x119d1 0x119d3 .mc, run 0x119d4 0x119d7 .mn,
  run 0x119da 0x119db .mn, run 0x119dc 0x119df .mc, one 0x119e0 .mn, one 0x119e1 .lo,
  one 0x119e2 .po, one 0x119e3 .lo, one 0x119e4 .mc, one 0x11a00 .lo, run 0x11a01 0x11a0a .mn,
  run 0x11a0b 0x11a32 .lo, run 0x11a33 0x11a38 .mn, one 0x11a39 .mc, one 0x11a3a .lo,
  run 0x11a3b 0x11a3e .mn, run 0x11a3f 0x11a46 .po, one 0x11a47 .mn, one 0x11a50 .lo,
  run 0x11a51 0x11a56 .mn, run 0x11a57 0x11a58 .mc, run 0x11a59 0x11a5b .mn,
  run 0x11a5c 0x11a89 .lo, run 0x11a8a 0x11a96 .mn, one 0x11a97 .mc, run 0x11a98 0x11a99 .mn,
  run 0x11a9a 0x11a9c .po, one 0x11a9d .lo, run 0x11a9e 0x11aa2 .po, run 0x11ab0 0x11af8 .lo,
  run 0x11b00 0x11b09 .po, one 0x11b60 .mn, one 0x11b61 .mc, run 0x11b62 0x11b64 .mn,
  one 0x11b65 .mc, one 0x11b66 .mn, one 0x11b67 .mc, run 0x11bc0 0x11be0 .lo, one 0x11be1 .po,
  run 0x11bf0 0x11bf9 .nd, run 0x11c00 0x11c08 .lo, run 0x11c0a 0x11c2e .lo, one 0x11c2f .mc,
  run 0x11c30 0x11c36 .mn, run 0x11c38 0x11c3d .mn, one 0x11c3e .mc, one 0x11c3f .mn,
  one 0x11c40 .lo, run 0x11c41 0x11c45 .po, run 0x11c50 0x11c59 .nd, run 0x11c5a 0x11c6c .no,
  run 0x11c70 0x11c71 .po, run 0x11c72 0x11c8f .lo, run 0x11c92 0x11ca7 .mn, one 0x11ca9 .mc,
  run 0x11caa 0x11cb0 .mn, one 0x11cb1 .mc, run 0x11cb2 0x11cb3 .mn, one 0x11cb4 .mc,
  run 0x11cb5 0x11cb6 .mn, run 0x11d00 0x11d06 .lo, run 0x11d08 0x11d09 .lo,
  run 0x11d0b 0x11d30 .lo, run 0x11d31 0x11d36 .mn, one 0x11d3a .mn, run 0x11d3c 0x11d3d .mn,
  run 0x11d3f 0x11d45 .mn, one 0x11d46 .lo, one 0x11d47 .mn, run 0x11d50 0x11d59 .nd,
  run 0x11d60 0x11d65 .lo, run 0x11d67 0x11d68 .lo, run 0x11d6a 0x11d89 .lo,
  run 0x11d8a 0x11d8e .mc, run 0x11d90 0x11d91 .mn, run 0x11d93 0x11d94 .mc, one 0x11d95 .mn,
  one 0x11d96 .mc, one 0x11d97 .mn, one 0x11d98 .lo, run 0x11da0 0x11da9 .nd,
  run 0x11db0 0x11dd8 .lo, one 0x11dd9 .lm, run 0x11dda 0x11ddb .lo, run 0x11de0 0x11de9 .nd,
  run 0x11ee0 0x11ef2 .lo, run 0x11ef3 0x11ef4 .mn, run 0x11ef5 0x11ef6 .mc,
  run 0x11ef7 0x11ef8 .po, run 0x11f00 0x11f01 .mn, one 0x11f02 .lo, one 0x11f03 .mc,
  run 0x11f04 0x11f10 .lo, run 0x11f12 0x11f33 .lo, run 0x11f34 0x11f35 .mc,
  run 0x11f36 0x11f3a .mn, run 0x11f3e 0x11f3f .mc, one 0x11f40 .mn, one 0x11f41 .mc,
  one 0x11f42 .mn, run 0x11f43 0x11f4f .po, run 0x11f50 0x11f59 .nd, one 0x11f5a .mn,
  one 0x11fb0 .lo, run 0x11fc0 0x11fd4 .no, run 0x11fd5 0x11fdc .so, run 0x11fdd 0x11fe0 .sc,
  run 0x11fe1 0x11ff1 .so, one 0x11fff .po, run 0x12000 0x12399 .lo, run 0x12400 0x1246e .nl,
  run 0x12470 0x12474 .po, run 0x12480 0x12543 .lo, run 0x12f90 0x12ff0 .lo,
  run 0x12ff1 0x12ff2 .po, run 0x13000 0x1342f .lo, run 0x13430 0x1343f .cf, one 0x13440 .mn,
  run 0x13441 0x13446 .lo, run 0x13447 0x13455 .mn, run 0x13460 0x143fa .lo,
  run 0x14400 0x14646 .lo]

/-- Runs of U+16000 to U+10FFFF: notations, pictographs, ideographs and private use. -/
def pictographRuns : List Run := [
  run 0x16100 0x1611d .lo, run 0x1611e 0x16129 .mn, run 0x1612a 0x1612c .mc,
  run 0x1612d 0x1612f .mn, run 0x16130 0x16139 .nd, run 0x16800 0x16a38 .lo,
  run 0x16a40 0x16a5e .lo, run 0x16a60 0x16a69 .nd, run 0x16a6e 0x16a6f .po,
  run 0x16a70 0x16abe .lo, run 0x16ac0 0x16ac9 .nd, run 0x16ad0 0x16aed .lo,
  run 0x16af0 0x16af4 .mn, one 0x16af5 .po, run 0x16b00 0x16b2f .lo, run 0x16b30 0x16b36 .mn,
  run 0x16b37 0x16b3b .po, run 0x16b3c 0x16b3f .so, run 0x16b40 0x16b43 .lm, one 0x16b44 .po,
  one 0x16b45 .so, run 0x16b50 0x16b59 .nd, run 0x16b5b 0x16b61 .no, run 0x16b63 0x16b77 .lo,
  run 0x16b7d 0x16b8f .lo, run 0x16d40 0x16d42 .lm, run 0x16d43 0x16d6a .lo,
  run 0x16d6b 0x16d6c .lm, run 0x16d6d 0x16d6f .po, run 0x16d70 0x16d79 .nd,
  run 0x16e40 0x16e5f .lu, run 0x16e60 0x16e7f .ll, run 0x16e80 0x16e96 .no,
  run 0x16e97 0x16e9a .po, run 0x16ea0 0x16eb8 .lu, run 0x16ebb 0x16ed3 .ll,
  run 0x16f00 0x16f4a .lo, one 0x16f4f .mn, one 0x16f50 .lo, run 0x16f51 0x16f87 .mc,
  run 0x16f8f 0x16f92 .mn, run 0x16f93 0x16f9f .lm, run 0x16fe0 0x16fe1 .lm, one 0x16fe2 .po,
  one 0x16fe3 .lm, one 0x16fe4 .mn, run 0x16ff0 0x16ff1 .mc, run 0x16ff2 0x16ff3 .lm,
  run 0x16ff4 0x16ff6 .nl, run 0x17000 0x18cd5 .lo, run 0x18cff 0x18d1e .lo,
  run 0x18d80 0x18df2 .lo, run 0x1aff0 0x1aff3 .lm, run 0x1aff5 0x1affb .lm,
  run 0x1affd 0x1affe .lm, run 0x1b000 0x1b122 .lo, one 0x1b132 .lo, run 0x1b150 0x1b152 .lo,
  one 0x1b155 .lo, run 0x1b164 0x1b167 .lo, run 0x1b170 0x1b2fb .lo, run 0x1bc00 0x1bc6a .lo,
  run 0x1bc70 0x1bc7c .lo, run 0x1bc80 0x1bc88 .lo, run 0x1bc90 0x1bc99 .lo, one 0x1bc9c .so,
  run 0x1bc9d 0x1bc9e .mn, one 0x1bc9f .po, run 0x1bca0 0x1bca3 .cf, run 0x1cc00 0x1ccef .so,
  run 0x1ccf0 0x1ccf9 .nd, run 0x1ccfa 0x1ccfc .so, run 0x1cd00 0x1ceb3 .so,
  run 0x1ceba 0x1ced0 .so, run 0x1cee0 0x1ceef .so, one 0x1cef0 .sm, run 0x1cf00 0x1cf2d .mn,
  run 0x1cf30 0x1cf46 .mn, run 0x1cf50 0x1cfc3 .so, run 0x1d000 0x1d0f5 .so,
  run 0x1d100 0x1d126 .so, run 0x1d129 0x1d164 .so, run 0x1d165 0x1d166 .mc,
  run 0x1d167 0x1d169 .mn, run 0x1d16a 0x1d16c .so, run 0x1d16d 0x1d172 .mc,
  run 0x1d173 0x1d17a .cf, run 0x1d17b 0x1d182 .mn, run 0x1d183 0x1d184 .so,
  run 0x1d185 0x1d18b .mn, run 0x1d18c 0x1d1a9 .so, run 0x1d1aa 0x1d1ad .mn,
  run 0x1d1ae 0x1d1ea .so, run 0x1d200 0x1d241 .so, run 0x1d242 0x1d244 .mn, one 0x1d245 .so,
  run 0x1d2c0 0x1d2d3 .no, run 0x1d2e0 0x1d2f3 .no, run 0x1d300 0x1d356 .so,
  run 0x1d360 0x1d378 .no, run 0x1d400 0x1d419 .lu, run 0x1d41a 0x1d433 .ll,
  run 0x1d434 0x1d44d .lu, run 0x1d44e 0x1d454 .ll, run 0x1d456 0x1d467 .ll,
  run 0x1d468 0x1d481 .lu, run 0x1d482 0x1d49b .ll, one 0x1d49c .lu, run 0x1d49e 0x1d49f .lu,
  one 0x1d4a2 .lu, run 0x1d4a5 0x1d4a6 .lu, run 0x1d4a9 0x1d4ac .lu, run 0x1d4ae 0x1d4b5 .lu,
  run 0x1d4b6 0x1d4b9 .ll, one 0x1d4bb .ll, run 0x1d4bd 0x1d4c3 .ll, run 0x1d4c5 0x1d4cf .ll,
  run 0x1d4d0 0x1d4e9 .lu, run 0x1d4ea 0x1d503 .ll, run 0x1d504 0x1d505 .lu,
  run 0x1d507 0x1d50a .lu, run 0x1d50d 0x1d514 .lu, run 0x1d516 0x1d51c .lu,
  run 0x1d51e 0x1d537 .ll, run 0x1d538 0x1d539 .lu, run 0x1d53b 0x1d53e .lu,
  run 0x1d540 0x1d544 .lu, one 0x1d546 .lu, run 0x1d54a 0x1d550 .lu, run 0x1d552 0x1d56b .ll,
  run 0x1d56c 0x1d585 .lu, run 0x1d586 0x1d59f .ll, run 0x1d5a0 0x1d5b9 .lu,
  run 0x1d5ba 0x1d5d3 .ll, run 0x1d5d4 0x1d5ed .lu, run 0x1d5ee 0x1d607 .ll,
  run 0x1d608 0x1d621 .lu, run 0x1d622 0x1d63b .ll, run 0x1d63c 0x1d655 .lu,
  run 0x1d656 0x1d66f .ll, run 0x1d670 0x1d689 .lu, run 0x1d68a 0x1d6a5 .ll,
  run 0x1d6a8 0x1d6c0 .lu, one 0x1d6c1 .sm, run 0x1d6c2 0x1d6da .ll, one 0x1d6db .sm,
  run 0x1d6dc 0x1d6e1 .ll, run 0x1d6e2 0x1d6fa .lu, one 0x1d6fb .sm, run 0x1d6fc 0x1d714 .ll,
  one 0x1d715 .sm, run 0x1d716 0x1d71b .ll, run 0x1d71c 0x1d734 .lu, one 0x1d735 .sm,
  run 0x1d736 0x1d74e .ll, one 0x1d74f .sm, run 0x1d750 0x1d755 .ll, run 0x1d756 0x1d76e .lu,
  one 0x1d76f .sm, run 0x1d770 0x1d788 .ll, one 0x1d789 .sm, run 0x1d78a 0x1d78f .ll,
  run 0x1d790 0x1d7a8 .lu, one 0x1d7a9 .sm, run 0x1d7aa 0x1d7c2 .ll, one 0x1d7c3 .sm,
  run 0x1d7c4 0x1d7c9 .ll, one 0x1d7ca .lu, one 0x1d7cb .ll, run 0x1d7ce 0x1d7ff .nd,
  run 0x1d800 0x1d9ff .so, run 0x1da00 0x1da36 .mn, run 0x1da37 0x1da3a .so,
  run 0x1da3b 0x1da6c .mn, run 0x1da6d 0x1da74 .so, one 0x1da75 .mn, run 0x1da76 0x1da83 .so,
  one 0x1da84 .mn, run 0x1da85 0x1da86 .so, run 0x1da87 0x1da8b .po, run 0x1da9b 0x1da9f .mn,
  run 0x1daa1 0x1daaf .mn, run 0x1df00 0x1df09 .ll, one 0x1df0a .lo, run 0x1df0b 0x1df1e .ll,
  run 0x1df25 0x1df2a .ll, run 0x1e000 0x1e006 .mn, run 0x1e008 0x1e018 .mn,
  run 0x1e01b 0x1e021 .mn, run 0x1e023 0x1e024 .mn, run 0x1e026 0x1e02a .mn,
  run 0x1e030 0x1e06d .lm, one 0x1e08f .mn, run 0x1e100 0x1e12c .lo, run 0x1e130 0x1e136 .mn,
  run 0x1e137 0x1e13d .lm, run 0x1e140 0x1e149 .nd, one 0x1e14e .lo, one 0x1e14f .so,
  run 0x1e290 0x1e2ad .lo, one 0x1e2ae .mn, run 0x1e2c0 0x1e2eb .lo, run 0x1e2ec 0x1e2ef .mn,
  run 0x1e2f0 0x1e2f9 .nd, one 0x1e2ff .sc, run 0x1e4d0 0x1e4ea .lo, one 0x1e4eb .lm,
  run 0x1e4ec 0x1e4ef .mn, run 0x1e4f0 0x1e4f9 .nd, run 0x1e5d0 0x1e5ed .lo,
  run 0x1e5ee 0x1e5ef .mn, one 0x1e5f0 .lo, run 0x1e5f1 0x1e5fa .nd, one 0x1e5ff .po,
  run 0x1e6c0 0x1e6de .lo, run 0x1e6e0 0x1e6e2 .lo, one 0x1e6e3 .mn, run 0x1e6e4 0x1e6e5 .lo,
  one 0x1e6e6 .mn, run 0x1e6e7 0x1e6ed .lo, run 0x1e6ee 0x1e6ef .mn, run 0x1e6f0 0x1e6f4 .lo,
  one 0x1e6f5 .mn, one 0x1e6fe .lo, one 0x1e6ff .lm, run 0x1e7e0 0x1e7e6 .lo,
  run 0x1e7e8 0x1e7eb .lo, run 0x1e7ed 0x1e7ee .lo, run 0x1e7f0 0x1e7fe .lo,
  run 0x1e800 0x1e8c4 .lo, run 0x1e8c7 0x1e8cf .no, run 0x1e8d0 0x1e8d6 .mn,
  run 0x1e900 0x1e921 .lu, run 0x1e922 0x1e943 .ll, run 0x1e944 0x1e94a .mn, one 0x1e94b .lm,
  run 0x1e950 0x1e959 .nd, run 0x1e95e 0x1e95f .po, run 0x1ec71 0x1ecab .no, one 0x1ecac .so,
  run 0x1ecad 0x1ecaf .no, one 0x1ecb0 .sc, run 0x1ecb1 0x1ecb4 .no, run 0x1ed01 0x1ed2d .no,
  one 0x1ed2e .so, run 0x1ed2f 0x1ed3d .no, run 0x1ee00 0x1ee03 .lo, run 0x1ee05 0x1ee1f .lo,
  run 0x1ee21 0x1ee22 .lo, one 0x1ee24 .lo, one 0x1ee27 .lo, run 0x1ee29 0x1ee32 .lo,
  run 0x1ee34 0x1ee37 .lo, one 0x1ee39 .lo, one 0x1ee3b .lo, one 0x1ee42 .lo, one 0x1ee47 .lo,
  one 0x1ee49 .lo, one 0x1ee4b .lo, run 0x1ee4d 0x1ee4f .lo, run 0x1ee51 0x1ee52 .lo,
  one 0x1ee54 .lo, one 0x1ee57 .lo, one 0x1ee59 .lo, one 0x1ee5b .lo, one 0x1ee5d .lo,
  one 0x1ee5f .lo, run 0x1ee61 0x1ee62 .lo, one 0x1ee64 .lo, run 0x1ee67 0x1ee6a .lo,
  run 0x1ee6c 0x1ee72 .lo, run 0x1ee74 0x1ee77 .lo, run 0x1ee79 0x1ee7c .lo, one 0x1ee7e .lo,
  run 0x1ee80 0x1ee89 .lo, run 0x1ee8b 0x1ee9b .lo, run 0x1eea1 0x1eea3 .lo,
  run 0x1eea5 0x1eea9 .lo, run 0x1eeab 0x1eebb .lo, run 0x1eef0 0x1eef1 .sm,
  run 0x1f000 0x1f02b .so, run 0x1f030 0x1f093 .so, run 0x1f0a0 0x1f0ae .so,
  run 0x1f0b1 0x1f0bf .so, run 0x1f0c1 0x1f0cf .so, run 0x1f0d1 0x1f0f5 .so,
  run 0x1f100 0x1f10c .no, run 0x1f10d 0x1f1ad .so, run 0x1f1e6 0x1f202 .so,
  run 0x1f210 0x1f23b .so, run 0x1f240 0x1f248 .so, run 0x1f250 0x1f251 .so,
  run 0x1f260 0x1f265 .so, run 0x1f300 0x1f3fa .so, run 0x1f3fb 0x1f3ff .sk,
  run 0x1f400 0x1f6d8 .so, run 0x1f6dc 0x1f6ec .so, run 0x1f6f0 0x1f6fc .so,
  run 0x1f700 0x1f7d9 .so, run 0x1f7e0 0x1f7eb .so, one 0x1f7f0 .so, run 0x1f800 0x1f80b .so,
  run 0x1f810 0x1f847 .so, run 0x1f850 0x1f859 .so, run 0x1f860 0x1f887 .so,
  run 0x1f890 0x1f8ad .so, run 0x1f8b0 0x1f8bb .so, run 0x1f8c0 0x1f8c1 .so,
  run 0x1f8d0 0x1f8d8 .sm, run 0x1f900 0x1fa57 .so, run 0x1fa60 0x1fa6d .so,
  run 0x1fa70 0x1fa7c .so, run 0x1fa80 0x1fa8a .so, run 0x1fa8e 0x1fac6 .so, one 0x1fac8 .so,
  run 0x1facd 0x1fadc .so, run 0x1fadf 0x1faea .so, run 0x1faef 0x1faf8 .so,
  run 0x1fb00 0x1fb92 .so, run 0x1fb94 0x1fbef .so, run 0x1fbf0 0x1fbf9 .nd, one 0x1fbfa .so,
  run 0x20000 0x2a6df .lo, run 0x2a700 0x2b81d .lo, run 0x2b820 0x2cead .lo,
  run 0x2ceb0 0x2ebe0 .lo, run 0x2ebf0 0x2ee5d .lo, run 0x2f800 0x2fa1d .lo,
  run 0x30000 0x3134a .lo, run 0x31350 0x33479 .lo, one 0xe0001 .cf, run 0xe0020 0xe007f .cf,
  run 0xe0100 0xe01ef .mn, run 0xf0000 0xffffd .co, run 0x100000 0x10fffd .co]

/-! ### Sections -/

/-- The runs of the section that holds the code point `n`. -/
def sectionRuns (n : Nat) : List Run :=
  if n < 0x600 then europeanRuns
  else if n < 0x1000 then indicRuns
  else if n < 0x1d00 then southeastAsianRuns
  else if n < 0x2e80 then symbolRuns
  else if n < 0x10000 then eastAsianRuns
  else if n < 0x11000 then ancientRuns
  else if n < 0x16000 then modernRuns
  else pictographRuns

end Category

end Softcode
