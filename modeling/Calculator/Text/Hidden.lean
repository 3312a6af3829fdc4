/-!
# Hidden characters

The characters that a quoted text does not show as themselves:

* those with no picture of their own: controls, format characters, surrogates,
  private use, unassigned code points, all separators but the space, and the
  fillers that a display may ignore (`Default_Ignorable_Code_Point`);
* those that attach to the character before them (`Grapheme_Extend`), except the
  two halfwidth voicing marks, which take a place of their own.

The ranges are those of Unicode 17.
-/

namespace Calculator.Text

/-- The closed code point ranges of the hidden characters, in ascending order. -/
def hiddenRanges : Array (Nat × Nat) :=
  #[
   (0x0000, 0x001F), (0x007F, 0x00A0), (0x00AD, 0x00AD), (0x0300, 0x036F), (0x0378, 0x0379),
   (0x0380, 0x0383), (0x038B, 0x038B), (0x038D, 0x038D), (0x03A2, 0x03A2), (0x0483, 0x0489),
   (0x0530, 0x0530), (0x0557, 0x0558), (0x058B, 0x058C), (0x0590, 0x05BD), (0x05BF, 0x05BF),
   (0x05C1, 0x05C2), (0x05C4, 0x05C5), (0x05C7, 0x05CF), (0x05EB, 0x05EE), (0x05F5, 0x0605),
   (0x0610, 0x061A), (0x061C, 0x061C), (0x064B, 0x065F), (0x0670, 0x0670), (0x06D6, 0x06DD),
   (0x06DF, 0x06E4), (0x06E7, 0x06E8), (0x06EA, 0x06ED), (0x070E, 0x070F), (0x0711, 0x0711),
   (0x0730, 0x074C), (0x07A6, 0x07B0), (0x07B2, 0x07BF), (0x07EB, 0x07F3), (0x07FB, 0x07FD),
   (0x0816, 0x0819), (0x081B, 0x0823), (0x0825, 0x0827), (0x0829, 0x082F), (0x083F, 0x083F),
   (0x0859, 0x085D), (0x085F, 0x085F), (0x086B, 0x086F), (0x0890, 0x089F), (0x08CA, 0x0902),
   (0x093A, 0x093A), (0x093C, 0x093C), (0x0941, 0x0948), (0x094D, 0x094D), (0x0951, 0x0957),
   (0x0962, 0x0963), (0x0981, 0x0981), (0x0984, 0x0984), (0x098D, 0x098E), (0x0991, 0x0992),
   (0x09A9, 0x09A9), (0x09B1, 0x09B1), (0x09B3, 0x09B5), (0x09BA, 0x09BC), (0x09BE, 0x09BE),
   (0x09C1, 0x09C6), (0x09C9, 0x09CA), (0x09CD, 0x09CD), (0x09CF, 0x09DB), (0x09DE, 0x09DE),
   (0x09E2, 0x09E5), (0x09FE, 0x0A02), (0x0A04, 0x0A04), (0x0A0B, 0x0A0E), (0x0A11, 0x0A12),
   (0x0A29, 0x0A29), (0x0A31, 0x0A31), (0x0A34, 0x0A34), (0x0A37, 0x0A37), (0x0A3A, 0x0A3D),
   (0x0A41, 0x0A58), (0x0A5D, 0x0A5D), (0x0A5F, 0x0A65), (0x0A70, 0x0A71), (0x0A75, 0x0A75),
   (0x0A77, 0x0A82), (0x0A84, 0x0A84), (0x0A8E, 0x0A8E), (0x0A92, 0x0A92), (0x0AA9, 0x0AA9),
   (0x0AB1, 0x0AB1), (0x0AB4, 0x0AB4), (0x0ABA, 0x0ABC), (0x0AC1, 0x0AC8), (0x0ACA, 0x0ACA),
   (0x0ACD, 0x0ACF), (0x0AD1, 0x0ADF), (0x0AE2, 0x0AE5), (0x0AF2, 0x0AF8), (0x0AFA, 0x0B01),
   (0x0B04, 0x0B04), (0x0B0D, 0x0B0E), (0x0B11, 0x0B12), (0x0B29, 0x0B29), (0x0B31, 0x0B31),
   (0x0B34, 0x0B34), (0x0B3A, 0x0B3C), (0x0B3E, 0x0B3F), (0x0B41, 0x0B46), (0x0B49, 0x0B4A),
   (0x0B4D, 0x0B5B), (0x0B5E, 0x0B5E), (0x0B62, 0x0B65), (0x0B78, 0x0B82), (0x0B84, 0x0B84),
   (0x0B8B, 0x0B8D), (0x0B91, 0x0B91), (0x0B96, 0x0B98), (0x0B9B, 0x0B9B), (0x0B9D, 0x0B9D),
   (0x0BA0, 0x0BA2), (0x0BA5, 0x0BA7), (0x0BAB, 0x0BAD), (0x0BBA, 0x0BBE), (0x0BC0, 0x0BC0),
   (0x0BC3, 0x0BC5), (0x0BC9, 0x0BC9), (0x0BCD, 0x0BCF), (0x0BD1, 0x0BE5), (0x0BFB, 0x0C00),
   (0x0C04, 0x0C04), (0x0C0D, 0x0C0D), (0x0C11, 0x0C11), (0x0C29, 0x0C29), (0x0C3A, 0x0C3C),
   (0x0C3E, 0x0C40), (0x0C45, 0x0C57), (0x0C5B, 0x0C5B), (0x0C5E, 0x0C5F), (0x0C62, 0x0C65),
   (0x0C70, 0x0C76), (0x0C81, 0x0C81), (0x0C8D, 0x0C8D), (0x0C91, 0x0C91), (0x0CA9, 0x0CA9),
   (0x0CB4, 0x0CB4), (0x0CBA, 0x0CBC), (0x0CBF, 0x0CC0), (0x0CC2, 0x0CC2), (0x0CC5, 0x0CDB),
   (0x0CDF, 0x0CDF), (0x0CE2, 0x0CE5), (0x0CF0, 0x0CF0), (0x0CF4, 0x0D01), (0x0D0D, 0x0D0D),
   (0x0D11, 0x0D11), (0x0D3B, 0x0D3C), (0x0D3E, 0x0D3E), (0x0D41, 0x0D45), (0x0D49, 0x0D49),
   (0x0D4D, 0x0D4D), (0x0D50, 0x0D53), (0x0D57, 0x0D57), (0x0D62, 0x0D65), (0x0D80, 0x0D81),
   (0x0D84, 0x0D84), (0x0D97, 0x0D99), (0x0DB2, 0x0DB2), (0x0DBC, 0x0DBC), (0x0DBE, 0x0DBF),
   (0x0DC7, 0x0DCF), (0x0DD2, 0x0DD7), (0x0DDF, 0x0DE5), (0x0DF0, 0x0DF1), (0x0DF5, 0x0E00),
   (0x0E31, 0x0E31), (0x0E34, 0x0E3E), (0x0E47, 0x0E4E), (0x0E5C, 0x0E80), (0x0E83, 0x0E83),
   (0x0E85, 0x0E85), (0x0E8B, 0x0E8B), (0x0EA4, 0x0EA4), (0x0EA6, 0x0EA6), (0x0EB1, 0x0EB1),
   (0x0EB4, 0x0EBC), (0x0EBE, 0x0EBF), (0x0EC5, 0x0EC5), (0x0EC7, 0x0ECF), (0x0EDA, 0x0EDB),
   (0x0EE0, 0x0EFF), (0x0F18, 0x0F19), (0x0F35, 0x0F35), (0x0F37, 0x0F37), (0x0F39, 0x0F39),
   (0x0F48, 0x0F48), (0x0F6D, 0x0F7E), (0x0F80, 0x0F84), (0x0F86, 0x0F87), (0x0F8D, 0x0FBD),
   (0x0FC6, 0x0FC6), (0x0FCD, 0x0FCD), (0x0FDB, 0x0FFF), (0x102D, 0x1030), (0x1032, 0x1037),
   (0x1039, 0x103A), (0x103D, 0x103E), (0x1058, 0x1059), (0x105E, 0x1060), (0x1071, 0x1074),
   (0x1082, 0x1082), (0x1085, 0x1086), (0x108D, 0x108D), (0x109D, 0x109D), (0x10C6, 0x10C6),
   (0x10C8, 0x10CC), (0x10CE, 0x10CF), (0x115F, 0x1160), (0x1249, 0x1249), (0x124E, 0x124F),
   (0x1257, 0x1257), (0x1259, 0x1259), (0x125E, 0x125F), (0x1289, 0x1289), (0x128E, 0x128F),
   (0x12B1, 0x12B1), (0x12B6, 0x12B7), (0x12BF, 0x12BF), (0x12C1, 0x12C1), (0x12C6, 0x12C7),
   (0x12D7, 0x12D7), (0x1311, 0x1311), (0x1316, 0x1317), (0x135B, 0x135F), (0x137D, 0x137F),
   (0x139A, 0x139F), (0x13F6, 0x13F7), (0x13FE, 0x13FF), (0x1680, 0x1680), (0x169D, 0x169F),
   (0x16F9, 0x16FF), (0x1712, 0x171E), (0x1732, 0x1734), (0x1737, 0x173F), (0x1752, 0x175F),
   (0x176D, 0x176D), (0x1771, 0x177F), (0x17B4, 0x17B5), (0x17B7, 0x17BD), (0x17C6, 0x17C6),
   (0x17C9, 0x17D3), (0x17DD, 0x17DF), (0x17EA, 0x17EF), (0x17FA, 0x17FF), (0x180B, 0x180F),
   (0x181A, 0x181F), (0x1879, 0x187F), (0x1885, 0x1886), (0x18A9, 0x18A9), (0x18AB, 0x18AF),
   (0x18F6, 0x18FF), (0x191F, 0x1922), (0x1927, 0x1928), (0x192C, 0x192F), (0x1932, 0x1932),
   (0x1939, 0x193F), (0x1941, 0x1943), (0x196E, 0x196F), (0x1975, 0x197F), (0x19AC, 0x19AF),
   (0x19CA, 0x19CF), (0x19DB, 0x19DD), (0x1A17, 0x1A18), (0x1A1B, 0x1A1D), (0x1A56, 0x1A56),
   (0x1A58, 0x1A60), (0x1A62, 0x1A62), (0x1A65, 0x1A6C), (0x1A73, 0x1A7F), (0x1A8A, 0x1A8F),
   (0x1A9A, 0x1A9F), (0x1AAE, 0x1B03), (0x1B34, 0x1B3D), (0x1B42, 0x1B44), (0x1B4D, 0x1B4D),
   (0x1B6B, 0x1B73), (0x1B80, 0x1B81), (0x1BA2, 0x1BA5), (0x1BA8, 0x1BAD), (0x1BE6, 0x1BE6),
   (0x1BE8, 0x1BE9), (0x1BED, 0x1BED), (0x1BEF, 0x1BFB), (0x1C2C, 0x1C33), (0x1C36, 0x1C3A),
   (0x1C4A, 0x1C4C), (0x1C8B, 0x1C8F), (0x1CBB, 0x1CBC), (0x1CC8, 0x1CD2), (0x1CD4, 0x1CE0),
   (0x1CE2, 0x1CE8), (0x1CED, 0x1CED), (0x1CF4, 0x1CF4), (0x1CF8, 0x1CF9), (0x1CFB, 0x1CFF),
   (0x1DC0, 0x1DFF), (0x1F16, 0x1F17), (0x1F1E, 0x1F1F), (0x1F46, 0x1F47), (0x1F4E, 0x1F4F),
   (0x1F58, 0x1F58), (0x1F5A, 0x1F5A), (0x1F5C, 0x1F5C), (0x1F5E, 0x1F5E), (0x1F7E, 0x1F7F),
   (0x1FB5, 0x1FB5), (0x1FC5, 0x1FC5), (0x1FD4, 0x1FD5), (0x1FDC, 0x1FDC), (0x1FF0, 0x1FF1),
   (0x1FF5, 0x1FF5), (0x1FFF, 0x200F), (0x2028, 0x202F), (0x205F, 0x206F), (0x2072, 0x2073),
   (0x208F, 0x208F), (0x209D, 0x209F), (0x20C2, 0x20FF), (0x218C, 0x218F), (0x242A, 0x243F),
   (0x244B, 0x245F), (0x2B74, 0x2B75), (0x2CEF, 0x2CF1), (0x2CF4, 0x2CF8), (0x2D26, 0x2D26),
   (0x2D28, 0x2D2C), (0x2D2E, 0x2D2F), (0x2D68, 0x2D6E), (0x2D71, 0x2D7F), (0x2D97, 0x2D9F),
   (0x2DA7, 0x2DA7), (0x2DAF, 0x2DAF), (0x2DB7, 0x2DB7), (0x2DBF, 0x2DBF), (0x2DC7, 0x2DC7),
   (0x2DCF, 0x2DCF), (0x2DD7, 0x2DD7), (0x2DDF, 0x2DFF), (0x2E5E, 0x2E7F), (0x2E9A, 0x2E9A),
   (0x2EF4, 0x2EFF), (0x2FD6, 0x2FEF), (0x3000, 0x3000), (0x302A, 0x302F), (0x3040, 0x3040),
   (0x3097, 0x309A), (0x3100, 0x3104), (0x3130, 0x3130), (0x3164, 0x3164), (0x318F, 0x318F),
   (0x31E6, 0x31EE), (0x321F, 0x321F), (0xA48D, 0xA48F), (0xA4C7, 0xA4CF), (0xA62C, 0xA63F),
   (0xA66F, 0xA672), (0xA674, 0xA67D), (0xA69E, 0xA69F), (0xA6F0, 0xA6F1), (0xA6F8, 0xA6FF),
   (0xA7DD, 0xA7F0), (0xA802, 0xA802), (0xA806, 0xA806), (0xA80B, 0xA80B), (0xA825, 0xA826),
   (0xA82C, 0xA82F), (0xA83A, 0xA83F), (0xA878, 0xA87F), (0xA8C4, 0xA8CD), (0xA8DA, 0xA8F1),
   (0xA8FF, 0xA8FF), (0xA926, 0xA92D), (0xA947, 0xA951), (0xA953, 0xA95E), (0xA97D, 0xA982),
   (0xA9B3, 0xA9B3), (0xA9B6, 0xA9B9), (0xA9BC, 0xA9BD), (0xA9C0, 0xA9C0), (0xA9CE, 0xA9CE),
   (0xA9DA, 0xA9DD), (0xA9E5, 0xA9E5), (0xA9FF, 0xA9FF), (0xAA29, 0xAA2E), (0xAA31, 0xAA32),
   (0xAA35, 0xAA3F), (0xAA43, 0xAA43), (0xAA4C, 0xAA4C), (0xAA4E, 0xAA4F), (0xAA5A, 0xAA5B),
   (0xAA7C, 0xAA7C), (0xAAB0, 0xAAB0), (0xAAB2, 0xAAB4), (0xAAB7, 0xAAB8), (0xAABE, 0xAABF),
   (0xAAC1, 0xAAC1), (0xAAC3, 0xAADA), (0xAAEC, 0xAAED), (0xAAF6, 0xAB00), (0xAB07, 0xAB08),
   (0xAB0F, 0xAB10), (0xAB17, 0xAB1F), (0xAB27, 0xAB27), (0xAB2F, 0xAB2F), (0xAB6C, 0xAB6F),
   (0xABE5, 0xABE5), (0xABE8, 0xABE8), (0xABED, 0xABEF), (0xABFA, 0xABFF), (0xD7A4, 0xD7AF),
   (0xD7C7, 0xD7CA), (0xD7FC, 0xF8FF), (0xFA6E, 0xFA6F), (0xFADA, 0xFAFF), (0xFB07, 0xFB12),
   (0xFB18, 0xFB1C), (0xFB1E, 0xFB1E), (0xFB37, 0xFB37), (0xFB3D, 0xFB3D), (0xFB3F, 0xFB3F),
   (0xFB42, 0xFB42), (0xFB45, 0xFB45), (0xFDD0, 0xFDEF), (0xFE00, 0xFE0F), (0xFE1A, 0xFE2F),
   (0xFE53, 0xFE53), (0xFE67, 0xFE67), (0xFE6C, 0xFE6F), (0xFE75, 0xFE75), (0xFEFD, 0xFF00),
   (0xFFA0, 0xFFA0), (0xFFBF, 0xFFC1), (0xFFC8, 0xFFC9), (0xFFD0, 0xFFD1), (0xFFD8, 0xFFD9),
   (0xFFDD, 0xFFDF), (0xFFE7, 0xFFE7), (0xFFEF, 0xFFFB), (0xFFFE, 0xFFFF), (0x1000C, 0x1000C),
   (0x10027, 0x10027), (0x1003B, 0x1003B), (0x1003E, 0x1003E), (0x1004E, 0x1004F),
   (0x1005E, 0x1007F), (0x100FB, 0x100FF), (0x10103, 0x10106), (0x10134, 0x10136),
   (0x1018F, 0x1018F), (0x1019D, 0x1019F), (0x101A1, 0x101CF), (0x101FD, 0x1027F),
   (0x1029D, 0x1029F), (0x102D1, 0x102E0), (0x102FC, 0x102FF), (0x10324, 0x1032C),
   (0x1034B, 0x1034F), (0x10376, 0x1037F), (0x1039E, 0x1039E), (0x103C4, 0x103C7),
   (0x103D6, 0x103FF), (0x1049E, 0x1049F), (0x104AA, 0x104AF), (0x104D4, 0x104D7),
   (0x104FC, 0x104FF), (0x10528, 0x1052F), (0x10564, 0x1056E), (0x1057B, 0x1057B),
   (0x1058B, 0x1058B), (0x10593, 0x10593), (0x10596, 0x10596), (0x105A2, 0x105A2),
   (0x105B2, 0x105B2), (0x105BA, 0x105BA), (0x105BD, 0x105BF), (0x105F4, 0x105FF),
   (0x10737, 0x1073F), (0x10756, 0x1075F), (0x10768, 0x1077F), (0x10786, 0x10786),
   (0x107B1, 0x107B1), (0x107BB, 0x107FF), (0x10806, 0x10807), (0x10809, 0x10809),
   (0x10836, 0x10836), (0x10839, 0x1083B), (0x1083D, 0x1083E), (0x10856, 0x10856),
   (0x1089F, 0x108A6), (0x108B0, 0x108DF), (0x108F3, 0x108F3), (0x108F6, 0x108FA),
   (0x1091C, 0x1091E), (0x1093A, 0x1093E), (0x1095A, 0x1097F), (0x109B8, 0x109BB),
   (0x109D0, 0x109D1), (0x10A01, 0x10A0F), (0x10A14, 0x10A14), (0x10A18, 0x10A18),
   (0x10A36, 0x10A3F), (0x10A49, 0x10A4F), (0x10A59, 0x10A5F), (0x10AA0, 0x10ABF),
   (0x10AE5, 0x10AEA), (0x10AF7, 0x10AFF), (0x10B36, 0x10B38), (0x10B56, 0x10B57),
   (0x10B73, 0x10B77), (0x10B92, 0x10B98), (0x10B9D, 0x10BA8), (0x10BB0, 0x10BFF),
   (0x10C49, 0x10C7F), (0x10CB3, 0x10CBF), (0x10CF3, 0x10CF9), (0x10D24, 0x10D2F),
   (0x10D3A, 0x10D3F), (0x10D66, 0x10D6D), (0x10D86, 0x10D8D), (0x10D90, 0x10E5F),
   (0x10E7F, 0x10E7F), (0x10EAA, 0x10EAC), (0x10EAE, 0x10EAF), (0x10EB2, 0x10EC1),
   (0x10EC8, 0x10ECF), (0x10ED9, 0x10EFF), (0x10F28, 0x10F2F), (0x10F46, 0x10F50),
   (0x10F5A, 0x10F6F), (0x10F82, 0x10F85), (0x10F8A, 0x10FAF), (0x10FCC, 0x10FDF),
   (0x10FF7, 0x10FFF), (0x11001, 0x11001), (0x11038, 0x11046), (0x1104E, 0x11051),
   (0x11070, 0x11070), (0x11073, 0x11074), (0x11076, 0x11081), (0x110B3, 0x110B6),
   (0x110B9, 0x110BA), (0x110BD, 0x110BD), (0x110C2, 0x110CF), (0x110E9, 0x110EF),
   (0x110FA, 0x11102), (0x11127, 0x1112B), (0x1112D, 0x11135), (0x11148, 0x1114F),
   (0x11173, 0x11173), (0x11177, 0x11181), (0x111B6, 0x111BE), (0x111C0, 0x111C0),
   (0x111C9, 0x111CC), (0x111CF, 0x111CF), (0x111E0, 0x111E0), (0x111F5, 0x111FF),
   (0x11212, 0x11212), (0x1122F, 0x11231), (0x11234, 0x11237), (0x1123E, 0x1123E),
   (0x11241, 0x1127F), (0x11287, 0x11287), (0x11289, 0x11289), (0x1128E, 0x1128E),
   (0x1129E, 0x1129E), (0x112AA, 0x112AF), (0x112DF, 0x112DF), (0x112E3, 0x112EF),
   (0x112FA, 0x11301), (0x11304, 0x11304), (0x1130D, 0x1130E), (0x11311, 0x11312),
   (0x11329, 0x11329), (0x11331, 0x11331), (0x11334, 0x11334), (0x1133A, 0x1133C),
   (0x1133E, 0x1133E), (0x11340, 0x11340), (0x11345, 0x11346), (0x11349, 0x1134A),
   (0x1134D, 0x1134F), (0x11351, 0x1135C), (0x11364, 0x1137F), (0x1138A, 0x1138A),
   (0x1138C, 0x1138D), (0x1138F, 0x1138F), (0x113B6, 0x113B6), (0x113B8, 0x113B8),
   (0x113BB, 0x113C9), (0x113CB, 0x113CB), (0x113CE, 0x113D0), (0x113D2, 0x113D2),
   (0x113D6, 0x113D6), (0x113D9, 0x113FF), (0x11438, 0x1143F), (0x11442, 0x11444),
   (0x11446, 0x11446), (0x1145C, 0x1145C), (0x1145E, 0x1145E), (0x11462, 0x1147F),
   (0x114B0, 0x114B0), (0x114B3, 0x114B8), (0x114BA, 0x114BA), (0x114BD, 0x114BD),
   (0x114BF, 0x114C0), (0x114C2, 0x114C3), (0x114C8, 0x114CF), (0x114DA, 0x1157F),
   (0x115AF, 0x115AF), (0x115B2, 0x115B7), (0x115BC, 0x115BD), (0x115BF, 0x115C0),
   (0x115DC, 0x115FF), (0x11633, 0x1163A), (0x1163D, 0x1163D), (0x1163F, 0x11640),
   (0x11645, 0x1164F), (0x1165A, 0x1165F), (0x1166D, 0x1167F), (0x116AB, 0x116AB),
   (0x116AD, 0x116AD), (0x116B0, 0x116B7), (0x116BA, 0x116BF), (0x116CA, 0x116CF),
   (0x116E4, 0x116FF), (0x1171B, 0x1171D), (0x1171F, 0x1171F), (0x11722, 0x11725),
   (0x11727, 0x1172F), (0x11747, 0x117FF), (0x1182F, 0x11837), (0x11839, 0x1183A),
   (0x1183C, 0x1189F), (0x118F3, 0x118FE), (0x11907, 0x11908), (0x1190A, 0x1190B),
   (0x11914, 0x11914), (0x11917, 0x11917), (0x11930, 0x11930), (0x11936, 0x11936),
   (0x11939, 0x1193E), (0x11943, 0x11943), (0x11947, 0x1194F), (0x1195A, 0x1199F),
   (0x119A8, 0x119A9), (0x119D4, 0x119DB), (0x119E0, 0x119E0), (0x119E5, 0x119FF),
   (0x11A01, 0x11A0A), (0x11A33, 0x11A38), (0x11A3B, 0x11A3E), (0x11A47, 0x11A4F),
   (0x11A51, 0x11A56), (0x11A59, 0x11A5B), (0x11A8A, 0x11A96), (0x11A98, 0x11A99),
   (0x11AA3, 0x11AAF), (0x11AF9, 0x11AFF), (0x11B0A, 0x11B60), (0x11B62, 0x11B64),
   (0x11B66, 0x11B66), (0x11B68, 0x11BBF), (0x11BE2, 0x11BEF), (0x11BFA, 0x11BFF),
   (0x11C09, 0x11C09), (0x11C30, 0x11C3D), (0x11C3F, 0x11C3F), (0x11C46, 0x11C4F),
   (0x11C6D, 0x11C6F), (0x11C90, 0x11CA8), (0x11CAA, 0x11CB0), (0x11CB2, 0x11CB3),
   (0x11CB5, 0x11CFF), (0x11D07, 0x11D07), (0x11D0A, 0x11D0A), (0x11D31, 0x11D45),
   (0x11D47, 0x11D4F), (0x11D5A, 0x11D5F), (0x11D66, 0x11D66), (0x11D69, 0x11D69),
   (0x11D8F, 0x11D92), (0x11D95, 0x11D95), (0x11D97, 0x11D97), (0x11D99, 0x11D9F),
   (0x11DAA, 0x11DAF), (0x11DDC, 0x11DDF), (0x11DEA, 0x11EDF), (0x11EF3, 0x11EF4),
   (0x11EF9, 0x11F01), (0x11F11, 0x11F11), (0x11F36, 0x11F3D), (0x11F40, 0x11F42),
   (0x11F5A, 0x11FAF), (0x11FB1, 0x11FBF), (0x11FF2, 0x11FFE), (0x1239A, 0x123FF),
   (0x1246F, 0x1246F), (0x12475, 0x1247F), (0x12544, 0x12F8F), (0x12FF3, 0x12FFF),
   (0x13430, 0x13440), (0x13447, 0x1345F), (0x143FB, 0x143FF), (0x14647, 0x160FF),
   (0x1611E, 0x16129), (0x1612D, 0x1612F), (0x1613A, 0x167FF), (0x16A39, 0x16A3F),
   (0x16A5F, 0x16A5F), (0x16A6A, 0x16A6D), (0x16ABF, 0x16ABF), (0x16ACA, 0x16ACF),
   (0x16AEE, 0x16AF4), (0x16AF6, 0x16AFF), (0x16B30, 0x16B36), (0x16B46, 0x16B4F),
   (0x16B5A, 0x16B5A), (0x16B62, 0x16B62), (0x16B78, 0x16B7C), (0x16B90, 0x16D3F),
   (0x16D7A, 0x16E3F), (0x16E9B, 0x16E9F), (0x16EB9, 0x16EBA), (0x16ED4, 0x16EFF),
   (0x16F4B, 0x16F4F), (0x16F88, 0x16F92), (0x16FA0, 0x16FDF), (0x16FE4, 0x16FF1),
   (0x16FF7, 0x16FFF), (0x18CD6, 0x18CFE), (0x18D1F, 0x18D7F), (0x18DF3, 0x1AFEF),
   (0x1AFF4, 0x1AFF4), (0x1AFFC, 0x1AFFC), (0x1AFFF, 0x1AFFF), (0x1B123, 0x1B131),
   (0x1B133, 0x1B14F), (0x1B153, 0x1B154), (0x1B156, 0x1B163), (0x1B168, 0x1B16F),
   (0x1B2FC, 0x1BBFF), (0x1BC6B, 0x1BC6F), (0x1BC7D, 0x1BC7F), (0x1BC89, 0x1BC8F),
   (0x1BC9A, 0x1BC9B), (0x1BC9D, 0x1BC9E), (0x1BCA0, 0x1CBFF), (0x1CCFD, 0x1CCFF),
   (0x1CEB4, 0x1CEB9), (0x1CED1, 0x1CEDF), (0x1CEF1, 0x1CF4F), (0x1CFC4, 0x1CFFF),
   (0x1D0F6, 0x1D0FF), (0x1D127, 0x1D128), (0x1D165, 0x1D169), (0x1D16D, 0x1D182),
   (0x1D185, 0x1D18B), (0x1D1AA, 0x1D1AD), (0x1D1EB, 0x1D1FF), (0x1D242, 0x1D244),
   (0x1D246, 0x1D2BF), (0x1D2D4, 0x1D2DF), (0x1D2F4, 0x1D2FF), (0x1D357, 0x1D35F),
   (0x1D379, 0x1D3FF), (0x1D455, 0x1D455), (0x1D49D, 0x1D49D), (0x1D4A0, 0x1D4A1),
   (0x1D4A3, 0x1D4A4), (0x1D4A7, 0x1D4A8), (0x1D4AD, 0x1D4AD), (0x1D4BA, 0x1D4BA),
   (0x1D4BC, 0x1D4BC), (0x1D4C4, 0x1D4C4), (0x1D506, 0x1D506), (0x1D50B, 0x1D50C),
   (0x1D515, 0x1D515), (0x1D51D, 0x1D51D), (0x1D53A, 0x1D53A), (0x1D53F, 0x1D53F),
   (0x1D545, 0x1D545), (0x1D547, 0x1D549), (0x1D551, 0x1D551), (0x1D6A6, 0x1D6A7),
   (0x1D7CC, 0x1D7CD), (0x1DA00, 0x1DA36), (0x1DA3B, 0x1DA6C), (0x1DA75, 0x1DA75),
   (0x1DA84, 0x1DA84), (0x1DA8C, 0x1DEFF), (0x1DF1F, 0x1DF24), (0x1DF2B, 0x1E02F),
   (0x1E06E, 0x1E0FF), (0x1E12D, 0x1E136), (0x1E13E, 0x1E13F), (0x1E14A, 0x1E14D),
   (0x1E150, 0x1E28F), (0x1E2AE, 0x1E2BF), (0x1E2EC, 0x1E2EF), (0x1E2FA, 0x1E2FE),
   (0x1E300, 0x1E4CF), (0x1E4EC, 0x1E4EF), (0x1E4FA, 0x1E5CF), (0x1E5EE, 0x1E5EF),
   (0x1E5FB, 0x1E5FE), (0x1E600, 0x1E6BF), (0x1E6DF, 0x1E6DF), (0x1E6E3, 0x1E6E3),
   (0x1E6E6, 0x1E6E6), (0x1E6EE, 0x1E6EF), (0x1E6F5, 0x1E6FD), (0x1E700, 0x1E7DF),
   (0x1E7E7, 0x1E7E7), (0x1E7EC, 0x1E7EC), (0x1E7EF, 0x1E7EF), (0x1E7FF, 0x1E7FF),
   (0x1E8C5, 0x1E8C6), (0x1E8D0, 0x1E8FF), (0x1E944, 0x1E94A), (0x1E94C, 0x1E94F),
   (0x1E95A, 0x1E95D), (0x1E960, 0x1EC70), (0x1ECB5, 0x1ED00), (0x1ED3E, 0x1EDFF),
   (0x1EE04, 0x1EE04), (0x1EE20, 0x1EE20), (0x1EE23, 0x1EE23), (0x1EE25, 0x1EE26),
   (0x1EE28, 0x1EE28), (0x1EE33, 0x1EE33), (0x1EE38, 0x1EE38), (0x1EE3A, 0x1EE3A),
   (0x1EE3C, 0x1EE41), (0x1EE43, 0x1EE46), (0x1EE48, 0x1EE48), (0x1EE4A, 0x1EE4A),
   (0x1EE4C, 0x1EE4C), (0x1EE50, 0x1EE50), (0x1EE53, 0x1EE53), (0x1EE55, 0x1EE56),
   (0x1EE58, 0x1EE58), (0x1EE5A, 0x1EE5A), (0x1EE5C, 0x1EE5C), (0x1EE5E, 0x1EE5E),
   (0x1EE60, 0x1EE60), (0x1EE63, 0x1EE63), (0x1EE65, 0x1EE66), (0x1EE6B, 0x1EE6B),
   (0x1EE73, 0x1EE73), (0x1EE78, 0x1EE78), (0x1EE7D, 0x1EE7D), (0x1EE7F, 0x1EE7F),
   (0x1EE8A, 0x1EE8A), (0x1EE9C, 0x1EEA0), (0x1EEA4, 0x1EEA4), (0x1EEAA, 0x1EEAA),
   (0x1EEBC, 0x1EEEF), (0x1EEF2, 0x1EFFF), (0x1F02C, 0x1F02F), (0x1F094, 0x1F09F),
   (0x1F0AF, 0x1F0B0), (0x1F0C0, 0x1F0C0), (0x1F0D0, 0x1F0D0), (0x1F0F6, 0x1F0FF),
   (0x1F1AE, 0x1F1E5), (0x1F203, 0x1F20F), (0x1F23C, 0x1F23F), (0x1F249, 0x1F24F),
   (0x1F252, 0x1F25F), (0x1F266, 0x1F2FF), (0x1F6D9, 0x1F6DB), (0x1F6ED, 0x1F6EF),
   (0x1F6FD, 0x1F6FF), (0x1F7DA, 0x1F7DF), (0x1F7EC, 0x1F7EF), (0x1F7F1, 0x1F7FF),
   (0x1F80C, 0x1F80F), (0x1F848, 0x1F84F), (0x1F85A, 0x1F85F), (0x1F888, 0x1F88F),
   (0x1F8AE, 0x1F8AF), (0x1F8BC, 0x1F8BF), (0x1F8C2, 0x1F8CF), (0x1F8D9, 0x1F8FF),
   (0x1FA58, 0x1FA5F), (0x1FA6E, 0x1FA6F), (0x1FA7D, 0x1FA7F), (0x1FA8B, 0x1FA8D),
   (0x1FAC7, 0x1FAC7), (0x1FAC9, 0x1FACC), (0x1FADD, 0x1FADE), (0x1FAEB, 0x1FAEE),
   (0x1FAF9, 0x1FAFF), (0x1FB93, 0x1FB93), (0x1FBFB, 0x1FFFF), (0x2A6E0, 0x2A6FF),
   (0x2B81E, 0x2B81F), (0x2CEAE, 0x2CEAF), (0x2EBE1, 0x2EBEF), (0x2EE5E, 0x2F7FF),
   (0x2FA1E, 0x2FFFF), (0x3134B, 0x3134F), (0x3347A, 0x10FFFF)
  ]

/-- A character is hidden when its code point lies in one of `hiddenRanges`. -/
def isHidden (c : Char) : Bool :=
  hiddenRanges.any fun range => range.1 ≤ c.toNat && c.toNat ≤ range.2

end Calculator.Text
