import PermissionGuard.Text.Utf8

/-!
The general categories of characters: letters, marks, numbers, punctuation, symbols, separators and
others, each with its kinds.
-/

namespace PermissionGuard.Text

inductive Category where
  | control
  | format
  | privateUse
  | surrogate
  | unassigned
  | lowercaseLetter
  | modifierLetter
  | otherLetter
  | titlecaseLetter
  | uppercaseLetter
  | spacingMark
  | enclosingMark
  | nonspacingMark
  | decimalNumber
  | letterNumber
  | otherNumber
  | connectorPunctuation
  | dashPunctuation
  | closePunctuation
  | finalPunctuation
  | initialPunctuation
  | otherPunctuation
  | openPunctuation
  | currencySymbol
  | modifierSymbol
  | mathSymbol
  | otherSymbol
  | lineSeparator
  | paragraphSeparator
  | spaceSeparator
  deriving DecidableEq, Repr, Inhabited

namespace Category

open Category in
/-- The two letters that name a category, and its mark in the table below. -/
def names : List (Category × String × Char) := [
  (control, "Cc", 'G'), (format, "Cf", 'H'), (privateUse, "Co", 'I'), (surrogate, "Cs", 'J'),
  (unassigned, "Cn", 'K'), (lowercaseLetter, "Ll", 'L'), (modifierLetter, "Lm", 'M'),
  (otherLetter, "Lo", 'N'), (titlecaseLetter, "Lt", 'O'), (uppercaseLetter, "Lu", 'P'),
  (spacingMark, "Mc", 'Q'), (enclosingMark, "Me", 'R'), (nonspacingMark, "Mn", 'S'),
  (decimalNumber, "Nd", 'T'), (letterNumber, "Nl", 'U'), (otherNumber, "No", 'V'),
  (connectorPunctuation, "Pc", 'W'), (dashPunctuation, "Pd", 'X'), (closePunctuation, "Pe", 'Y'),
  (finalPunctuation, "Pf", 'Z'), (initialPunctuation, "Pi", 'g'), (otherPunctuation, "Po", 'h'),
  (openPunctuation, "Ps", 'i'), (currencySymbol, "Sc", 'j'), (modifierSymbol, "Sk", 'k'),
  (mathSymbol, "Sm", 'l'), (otherSymbol, "So", 'm'), (lineSeparator, "Zl", 'n'),
  (paragraphSeparator, "Zp", 'o'), (spaceSeparator, "Zs", 'p')]

/-- The category of a mark. -/
def ofMark? (mark : Char) : Option Category :=
  (names.find? fun (_, _, m) => m == mark).map Prod.fst

/-- The categories of all code points from 0 on: the mark of a category, then in hexadecimal digits
how many code points in a row have it, if it is more than one. -/
def table : List String := [
  "G20ph3jh3iYhlhXh2TAh2l3h2P1AihYkWkL1AilYlG21phj4mhkmNglHmkmlV2kLh2kVNZV3hP17lP7L18lL8PLPLPLP",
  "LPLPLPLPLPLPLPLPLPLPLPLPLPLPLPLPLPLPLPLPLPLPLPLPL2PLPLPLPLPLPLPLPL2PLPLPLPLPLPLPLPLPLPLPLPLP",
  "LPLPLPLPLPLPLPLPLPLPLP2LPLPL3P2LPLP2LP3L2P4LP2LP3L3P2LP2LPLPLP2LPL2PLP2LP3LPLP2L2NPL3N4POLPO",
  "LPOLPLPLPLPLPLPLPLPL2PLPLPLPLPLPLPLPLPL2POLPLP3LPLPLPLPLPLPLPLPLPLPLPLPLPLPLPLPLPLPLPLPLPLPL",
  "PLPLPLPLPLPLPL7P2LP2L2PLP4LPLPLPLPL45NL1BM12k4MCkEM5k7MkMk11S70PLPLMkPLK2ML3hPK4k2PhP3KPKP2L",
  "P11KP9L23PL2P3L3PLPLPLPLPLPLPLPLPLPLPLPL5PLlPLP2L2P33L30PLPLPLPLPLPLPLPLPLPLPLPLPLPLPLPLPLm",
  "S5R2PLPLPLPLPLPLPLPLPLPLPLPLPLPLPLPLPLPLPLPLPLPLPLPLPLPLPLP2LPLPLPLPLPLPL2PLPLPLPLPLPLPLPLPL",
  "PLPLPLPLPLPLPLPLPLPLPLPLPLPLPLPLPLPLPLPLPLPLPLPLPLPLPLPLPLPLPLPLPLPLPLPLPLPLPLKP26K2Mh6L29hX",
  "K2m2jKS2DXShS2hS2hSK8N1BK4N4h2KBH6l3h2jh2m2SBhHh3N20MNAS15TAh4N2SN63hNS7HmS6M2S2mS4N2TAN3m2N",
  "hEKHNSN1ES1BK2N59SBNKETAN21S9M2mh3MK2Sj2N16S4MS9MS3MS5K2hFKN19S3K2hKNBK5N18kN6KH2K6S8N29MS18",
  "HS20QN36SQSNQ3S8Q4SQ2NS7NAS2h2TAhMNFSQ2KN8K2N2K2N16KN7KNK3N4K2SNQ3S4K2Q2K2Q2SNK8QK4N2KN3S2K2",
  "TAN2j2V6mjNhSK2S2QKN6K4N2K2N16KN7KN2KN2KN2K2SKQ3S2K4S2K2S3K3SK7N4KNK7TAS2N3ShKAS2QKN9KN3KN16",
  "KN7KN2KN5K2SNQ3S5KS2QKQ2SK2NKFN2S2K2TAhjK7NS6KSQ2KN8K2N2K2N16KN7KN2KN5K2SNQSQS4K2Q2K2Q2SK7S2",
  "QK4N2KN3S2K2TAmNV6KASNKN6K3N3KN4K3N2KNKN2K3N2K3N3K3NCK4Q2SQ2K3Q3KQ3SK2NK6QKETAV3m6jmK5SQ3SN8",
  "KN3KN17KN10K2SNS3Q4KS3KS4K7S2KN3K2NK2N2S2K2TAK7hV7mNSQ2hN8KN3KN17KNAKN5K2SNQSQ5KSQ2KQ2S2K7Q2",
  "K6N2KN2S2K2TAKN2QKCS2Q2N9KN3KN29S2NQ3S4KQ3KQ3SNmK4N3QV7N3S2K2TAV9mN6KSQ2KN12K3N18KN9KNK2N7K3",
  "SK4Q3S3KSKQ8K6TAK2Q2hKCN30SN2S7K4jN6MS8hTAh2K25N2KNKN5KN18KNKNASN2S9NK2N5KMKS7KTAK2N4K20Nm3",
  "hFmhm3S2m6TAVAmSmSmSiYiYQ2N8KN24K4SEQS5hS2N5SBKS24Km8Sm6Km2h5m4h2K25N2BQ2S4QS6QS2Q2S2NTAh6N6",
  "Q2S2N4S3NQ3N2Q7N3S4NDSQ2S2Q6SNQTAQ3Sm2P26KPK5PK2L2BhML3N149KN4K2N7KNKN4K2N29KN4K2N21KN4K2N7K",
  "NKN4K2NFKN39KN4K2N43K2S3h9V14K3N10mAK6P56K2L6K2XN26CmhN11pN1AiYK3N4Bh3U3N8K7N12S3QK9N13S2Qh2",
  "K9N12S2KCNDKN3KS2KCN34S2QS7Q8SQ2SBh3Mh3jNSK2TAK6VAK6h6Xh4S3HSTAK6N23MN35K7N5S2N22SNK5N46KA",
  "N1FKS3Q4S2Q3K4Q2SQ6S3K4mK3h2TAN1EK2N5KBN2CK4N1AK6TAVK3m22N17S2Q2SK2h2N35QSQS7KSQSQ2S8Q6SAK2S",
  "TAK6TAK6h7Mh6K2SERS10K31S4QN2FSQS5QSQ5SQ2N8K3TAh7mAS9m9h2KS2QN1EQS4Q2S2QS3N2TAN2CSQS2Q3SQS3",
  "Q2K8h4N24Q8S8Q2S2K3h5TAK3N3TAN1EM6h2L9K7P2BK2P3h8K8S3hSDQS7N4SN6SN2QS2NK5L2CM3FLDML22M25S40P",
  "LPLPLPLPLPLPLPLPLPLPLPLPLPLPLPLPLPLPLPLPLPLPLPLPLPLPLPLPLPLPLPLPLPLPLPLPLPLPLPLPLPLPLPLPLPLP",
  "LPLPLPLPLPLPLPLPLPLPLPLPLPLPLPLPLPLPLPLPLPLPLPLPLPLPLPLPL9PLPLPLPLPLPLPLPLPLPLPLPLPLPLPLPLPL",
  "PLPLPLPLPLPLPLPLPLPLPLPLPLPLPLPLPLPLPLPLPLPLPLPLPLPLPLPLPLPLPLPL9P8L6K2P6K2L8P8L8P8L6K2P6K2",
  "L8KPKPKPKPL8P8LEK2L8O8L8O8L8O8L5KL2P4OkLk3L3KL2P4Ok3L4K2L2P4Kk3L8P5k3K2L3KL2P4Ok2KpBH5X6h2gZ",
  "ig2Zigh8noH5ph9gZh4W2h3liYhBlhWhApH5KHAVMK2V6l3iYMVAl3iYKMDK3j21KFSDR4SR3SCKFm2Pm4Pm2LP3L2P3",
  "LmPm2lP5m6PmPmPmP4mLP4LN4Lm2L2P2l5PL4mlm2LmV10U23PLU4Vm2K4l5m5l2m4lm2lm2lm7lm1Fl2m2lmlm1F",
  "l10Cm8iYiYm14l2m7iYm51lm1El19m28l6m45K19mBK15V3Cm4EV16mB7lm9lm36l8m6FlmF8iYiYiYiYiYiYiYV1E",
  "m2Cl5iYl1FiYiYiYiYiYl10m100l83iYiYiYiYiYiYiYiYiYiYiYl3FiYiYl20iYl102m30l15m2l6m27K2m20Km69",
  "P30L30PLP3L2PLPLPLP4LPL2PL6M2P3LPLPLPLPLPLPLPLPLPLPLPLPLPLPLPLPLPLPLPLPLPLPLPLPLPLPLPLPLPLPL",
  "PLPLPLPLPLPLPLPLPLPLPLPLPLPLPLPLPLPLPL2m6PLPLS3PLK5h4Vh2L26KLK5LK2N38K7MhKESN17K9N7KN7KN7KN7",
  "KN7KN7KN7KN7KS20h2gZgZh3gZhgZh9Xh2XhgZh2gZiYiYiYiYh5MhAX2h4XhihDm2h3iYiYiYiYXK22m1AKm59KCmD6",
  "K1AmCK4ph3mMNUiYiYiYiYiYm2iYiYiYiYXiY2mU9S4Q2XM5m2U3MNhm2KN56K2S2k2M2NXN5AhM3NK5N2BKN5EKm2V4",
  "mAN20m24KCN10m1FKVAm1EV8mVFm20VAm27VFm140N19C0m40N5215MN477K3m37K9N28M6h2N10CMh3N10TAN2K14PL",
  "PLPLPLPLPLPLPLPLPLPLPLPLPLPLPLPLPLPLPLPLPLPLNSR3hSAhMPLPLPLPLPLPLPLPLPLPLPLPLPLPLM2S2N46UAS2",
  "h6K8k17M9k2PLPLPLPLPLPLPL3PLPLPLPLPLPLPLPLPLPLPLPLPLPLPLPLPLPLPLPLPLPLPLPLPLPLPLPLPLPLPLML8P",
  "LPLP2LPLPLPLPLMk2PLPLNPLPL3PLPLPLPLPLPLPLPLPLPLP5LP5LPLPLPLPLPLPLPLP4LPLK5PLKLKLPLPLK18M3PLN",
  "M2LN7SN3SN4SN17Q2S2Qm4SK3V6m2jmK6N34h4K8Q2N32Q10S2K8h2TAK6S12N6h3NhN2STAN1CS8h2N17SBQ2KBhN1D",
  "K3S3QN2FSQ2S4Q2S2Q3hDKMTAK4h2N5SMN9TAN5KN29S6Q2S2Q2S2K9N3SN8SQK2TAK2h4N10MN6m3NQSQN32SNS3N2",
  "S2N5S2NSNK18N2Mh2NBQS2Q2h2NM2QSKAN6K2N6K2N6K9N7KN7KL2BkM4L9Mk2K4L50N23Q2SQ2SQ2hQSK2TAK6N2BA4",
  "KCN17K4N31K4J800I1900N16EK2N6AK26L7KCL5K5NSNAlNDKN5KNKN2KN2KN6Ck11K10N16BYim10N40K2N36K7mK20",
  "NCjm3S10h7iYhK6S10hX2W2iYiYiYiYiYiYiYiYh2iYh4W3h3Kh4XiYiYiYh3lXl3Khjh2K4N5KN87K2HKh3jh3iYhlh",
  "Xh2TAh2l3h2P1AihYkWkL1AilYliYhiYh2NAMN2DM2N1FK3N6K2N6K2N6K2N3K3j2lkmj2Kml4m2KAH3m2K2NCKN1AK",
  "N13KN2KNFK2NEK22N7BK5h3K4V2DK3m9U35V4m11V2m3KmDK3mK2Fm2DSK82N1DK3N31KFSV1BK4N20V4K9N14UN8UK5",
  "N26S5K5N1EKhN24K4N8hU5K2AP28L28N4EK2TAK6P24K4L24K4N28K8N34KBhPBKPFKP7KP2KLBKLFKL7KL2K43N137",
  "K9N16KAN8K18M6KM2AKM9K45N6K2NKN2CKN2K3NK2N17KhV8N17m2V7N1FK8V9K30N13KN2K5V5N16V6K3hN1AK5hK40",
  "N38K4V2N2V10K2V2ENS3KS2K5S4N4KN3KN1DK2S3K4SV9K7h9K7N1DV2hN1DV3K20N8mN1CS2K4V5h7K9N36K3h7N16",
  "K2V8N13K5V8N12K7h4KCV7K50N49K37P33KDL33K7V6N24S4K8TAK126V1FKN2AKS2XK2N2K4BS3N1DVANK8N16SBV4",
  "h5K16N12S4h4K26N15V7K14N17K9QSQN35SFh7K4V14TASN2S2NK9S3QN2DQ3S4Q2S2h2Hh4SKAHK2N19K7TAK6S3N24",
  "S5QS8KTAh4NQ2NK8N23Sh2NK9S2QN30Q3S9Q2N4h4S4hQSTANhNh3KV14KBN12KN19Q3S3Q2SQS2h6SN2SK3EN7KNKN4",
  "KNFKNAhK6N2FSQ3S8K5TAK6S2Q2KN8K2N2K2N16KN7KN2KN5KS2NQ2SQ4K2Q2K2Q3K2NK6QK5N5Q2K2S7K3S5K8BN35",
  "Q3S8Q2S3QSN4h5TAh2KhSN3K1EN30Q3S6QSQ4S2QS2N2hNK8TAKA6N2FQ3S4K2Q4S2QS2h17N4S2K22N30Q3S8Q2SQS2",
  "h3NKBTAK6hDK13N2BSQSQ2S6QSNhK6TAK36N1BK2S3Q2S4QS5K4TAV2h3mN7KB9N2CQ3S9QS2hK64P20L20TAV9KCN8",
  "K2NK2N8KN2KN18Q6KQ2K2S2QSNQNQSh3K9TAK46N8K2N27Q3S4K2S2Q4SNhNQK1BNSAN28S6QNS4h8SK8NS6Q2S3N2E",
  "SDQS2h3Nh5KDN49K7hAKF6N9KN25QS7KS6QSNh5KATAV13K3h2N1EK2S16KQS7QS2QS2K49N7KN2KN26S6K3SKS2KS7N",
  "SK8TAK6N6KN2KN20Q5KS2KQ2SQSNK7TAK136N13S2Q2h2K7S2NQNDKN22Q2S5K3Q2SQShDTAK56NKFV15m8j4m11KDh",
  "N39AK66U6FKh5KBNC4KA4CN61h2KDN430H10SN6SFKFAAN247K21B9N239K7N1FKTAK4h2N4FKTAK6N1EK2S5hKAN30",
  "S7h5m4M4hmKATAKV7KN15K5N13K2B0P20L20V17h4K65N4BK4SNQ37K7S4MDK40M2hMSKBQ2KEN17F8K8N4D6K2AN9",
  "K22E7M4KM7KM2KN123KFNK1DN3K2NKEN4K8N18CK904N6BK5NDK3N9K7NAK2mS2hH4K125CS2EK2S17K9m74K3CmF6KA",
  "m27K2m3CQ2S3m3Q6H8S8m2S7m1ES4m3DK15m42S3mK7AV14KCV14KCm57K9V19K87P1AL1AP1AL7KL12P1AL1APKP2K2",
  "PK2P2K2P4KP8L4KLKL7KLBP1AL1AP2KP4K2P8KP7KL1AP2KP4KP5KPK3P7KL1AP1AL1AP1AL1AP1AL1AP1AL1AP1AL1A",
  "P1AL1CK2P19lL19lL6P19lL19lL6P19lL19lL6P19lL19lL6P19lL19lL6PLK2T32m200S37m4S32m8SmESm2h5KFS5K",
  "SFK450LANL14K6L6KD5S7KS11K2S7KS2KS5K5M3EK21SK70N2DK3S7M7K2TAK4NmK140N1ESK11N2CS4TAK5jK1D0N1B",
  "MS4TAK2E6N7KN4KN2KNFKNC5K2V9S7K29P22L22S7MK4TAK4h2K311V3BmV3jV4K4CV2DmVFKC2N4KN1BKN2KNK2NKNA",
  "KN4KNKNK6NK4NKNKNKN3KN2KNK2NKNKNKNKNKN2KNK2N4KN7KN4KN4KNKNAKN11K5N3KN5KN11K34l2K10Em2CK4m64",
  "KCmFK2mFKmFKm25KAVDmA1K38m1DKDm2CK4m9K7m2KEm6K9AmFBk5m2D8K4m11K3mDK3m77K4m5FK6mCK4mKFmCK4m38",
  "K8mAK6m28K8m1EK2m2K4Em154KCmEK2mDK3m9K7m2EKm7K8mEK4m9K7m9K7m93Km37K25TAK406NA6E0K20N103AK6",
  "NDEK2N1682KEN1D31KC1FN21EK5E2N134BK5N1060KADC51HK1EH60K80SF0KFE10IFFFEK2IFFFEK2"]

/-- How many code points a run has by its digits, where no digits stand for one. -/
def runLength (digits : List Char) : Nat :=
  if digits.isEmpty then 1
  else digits.foldl
    (fun n c => n * 16 + (if c.isDigit then c.toNat - 0x30 else c.toNat - 0x37)) 0

/-- The runs of a written table with the first code point of each, given the mark and the reversed
digits of the run at `start`. -/
def runsFrom (start : Nat) (mark : Char) (digits : List Char) : List Char → List (Category × Nat × Nat)
  | [] => [((ofMark? mark).getD .unassigned, start, start + runLength digits.reverse - 1)]
  | c :: rest =>
      if c.isDigit || ('A' ≤ c && c ≤ 'F') then runsFrom start mark (c :: digits) rest
      else
        let next := start + runLength digits.reverse
        ((ofMark? mark).getD .unassigned, start, next - 1) :: runsFrom next c [] rest

/-- Ranges of code points of one category, in increasing order. -/
def runs : List (Category × Nat × Nat) :=
  match table.flatMap String.toList with
  | [] => []
  | mark :: rest => runsFrom 0 mark [] rest

/-- The categories that a name of one or two letters stands for. One letter stands for all kinds of
it, without the code points that are not assigned. -/
def named (name : String) : List Category :=
  names.filterMap fun (category, full, _) =>
    if category ≠ .unassigned && (full == name || full.toList.take 1 == name.toList) then some category
    else none

/-- The code points of some categories, as ranges in increasing order. -/
def codePoints (categories : List Category) : List (Nat × Nat) :=
  runs.filterMap fun (category, range) => if categories.contains category then some range else none

end Category

end PermissionGuard.Text
