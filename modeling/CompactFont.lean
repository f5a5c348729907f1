import CompactFont.Font.Glyphs
import CompactFont.Font.Info
import CompactFont.Font.Requests
import CompactFont.Proofs.BuiltFont
import CompactFont.Proofs.Composition
import CompactFont.Proofs.DirectDrawing
import CompactFont.Proofs.GlyphSelection
import CompactFont.Proofs.Inlining
import CompactFont.Proofs.MaskLength
import CompactFont.Proofs.NameLookup
import CompactFont.Proofs.Quotients
import CompactFont.Proofs.RequestHistory
import CompactFont.Proofs.Subpaths
import CompactFont.Proofs.TokenSpelling
import CompactFont.Proofs.Type1Inlining
import CompactFont.Proofs.DecodedTokens
import CompactFont.Proofs.RequestSequence
import CompactFont.Proofs.ErrorIsolation
import CompactFont.Proofs.CacheSlots
import CompactFont.Proofs.Wrapping
import CompactFont.Proofs.Type1Order
import CompactFont.Proofs.Type1Text
import CompactFont.Proofs.ArgumentLimit
import CompactFont.Proofs.FlexMarks
import CompactFont.Proofs.OtherSubrResults
import CompactFont.Proofs.Flex
import CompactFont.Proofs.NestingLimit
import CompactFont.Proofs.ClosedSubpaths
import CompactFont.Proofs.WidthFirst
import CompactFont.Proofs.LoweredArities
import CompactFont.Proofs.CompositeGlyphs
import CompactFont.Proofs.CharsetEnumeration
import CompactFont.Proofs.CustomEncodings
import CompactFont.Proofs.FontDictRanges
import CompactFont.Proofs.RealText
import CompactFont.Proofs.RealLiterals
import CompactFont.Proofs.StringIds
import CompactFont.Proofs.CompositeBounds
import CompactFont.Proofs.SubroutineAddress
import CompactFont.Proofs.RangeReading
import CompactFont.Proofs.ArrayReading
import CompactFont.Proofs.WindowPlaces
