import WordFinder.Main
import WordFinder.Proofs.CommandLine.Marked
import WordFinder.Proofs.CommandLine.SavedOptions
import WordFinder.Proofs.Lexicon.Stems
import WordFinder.Proofs.Probability.RankRange
import WordFinder.Proofs.Rack.Assignment
import WordFinder.Proofs.Search.Complement
import WordFinder.Proofs.Search.ConditionOrder
import WordFinder.Proofs.Search.ImportOrder
import WordFinder.Proofs.Search.IncludedLetters
import WordFinder.Proofs.Search.Marked
import WordFinder.Proofs.Search.NormalForm
import WordFinder.Proofs.Search.Overflow
import WordFinder.Proofs.SearchString.Passes
import WordFinder.Proofs.Tile.Draws
import WordFinder.Proofs.WordInfo
import WordFinder.Proofs.Lexicon.ListedWords
import WordFinder.Proofs.SavedSearch.RetiredNames
import WordFinder.Proofs.Glossary.Stored
import WordFinder.Proofs.Glossary.Links
import WordFinder.Proofs.Tile.Distribution
import WordFinder.Proofs.Report.Layout
import WordFinder.Proofs.MatchSet.Algebra
import WordFinder.Proofs.Trie.ArenaPaths
import WordFinder.Proofs.Walk.Bookkeeping
import WordFinder.Proofs.Walk.Ends
import WordFinder.Proofs.SearchString.Reversal
import WordFinder.Proofs.Xml.EscapedText
