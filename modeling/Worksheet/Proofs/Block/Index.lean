import Worksheet.Block.Outline

namespace Worksheet.Outline

theorem map_index_blocks (script : String) :
    (ofScript script).blocks.map (·.index) = List.range (ofScript script).blocks.length := by
  rw [ofScript]
  simp only [List.map_map, List.length_map, List.length_zipIdx]
  rw [List.range_eq_range', ← List.zipIdx_map_snd]
  rfl

theorem nodup_index_blocks (script : String) :
    ((ofScript script).blocks.map (·.index)).Nodup := by
  rw [map_index_blocks]
  exact List.nodup_range

end Worksheet.Outline
