import MailMerge.Main
import MailMerge.Proofs.Neighbours
import MailMerge.Proofs.OrderKinds
import MailMerge.Proofs.Splicing
import MailMerge.Proofs.StableOrder
import MailMerge.Proofs.Escaping
import MailMerge.Proofs.MixedNumbers
import MailMerge.Proofs.SpecReading
import MailMerge.Proofs.SpecWriting
import MailMerge.Proofs.FirstFault
import MailMerge.Proofs.Numbering
import MailMerge.Proofs.SinkLimits
import MailMerge.Proofs.RemarkPlaces
import MailMerge.Proofs.Checking
import MailMerge.Proofs.Noninterference
import MailMerge.Proofs.DualSort
import MailMerge.Proofs.LocalOrder
import MailMerge.Proofs.StrictOrder
import MailMerge.Proofs.Instants
import MailMerge.Proofs.Seams
import MailMerge.Proofs.Tiling
import MailMerge.Proofs.Selecting
import MailMerge.Proofs.Supplying
import MailMerge.Proofs.Numerals
import MailMerge.Proofs.Widening
import MailMerge.Proofs.ReadingBack
import MailMerge.Proofs.FieldTexts
import MailMerge.Proofs.SignColumn
import MailMerge.Proofs.Grouping
import MailMerge.Proofs.Cutting
import MailMerge.Proofs.JobShape
import MailMerge.Proofs.CursorReading
