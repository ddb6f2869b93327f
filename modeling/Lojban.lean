import Lojban.Main
import Lojban.Text.Splice
import Lojban.Proofs.Brackets.Transparency
import Lojban.Proofs.Brackets.Unambiguous
import Lojban.Proofs.Brackets.WellNested
import Lojban.Proofs.Elision
import Lojban.Proofs.Gloss.Agreement
import Lojban.Proofs.Gloss.Balance
import Lojban.Proofs.Gloss.Distribution
import Lojban.Proofs.Hidden
import Lojban.Proofs.Tree.Lossless
import Lojban.Proofs.Tree.Reorder
import Lojban.Proofs.Tree.RoundTrip
import Lojban.Proofs.Gloss.Conversion
import Lojban.Proofs.Gloss.Headword
import Lojban.Proofs.Gloss.FirstPlace
import Lojban.Proofs.Gloss.Surface
import Lojban.Proofs.Gloss.Termination
import Lojban.Proofs.Brackets.Vacancy
import Lojban.Proofs.Glyphs.Pairing
import Lojban.Proofs.Glyphs.Numeral
import Lojban.Proofs.Glyphs.Restoring
import Lojban.Proofs.Tree.Linkless
import Lojban.Proofs.CommandLine.Scanning
import Lojban.Proofs.Table.History
import Lojban.Proofs.Text.Splice
